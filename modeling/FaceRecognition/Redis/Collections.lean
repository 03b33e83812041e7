import FaceRecognition.Core.IntText
import FaceRecognition.Lib.Table
import FaceRecognition.Redis.Server

/-!
# Hashes and lists of the Redis server

`HSET`, `HINCRBY`, `HGETALL`, `LRANGE`, `EXPIRE`, and a pipeline of `RPUSH`, `LTRIM` and `EXPIRE`
that runs between `MULTI` and `EXEC`, so as one command. A hash is a list of fields with their
texts, each field once; `HINCRBY` reads and writes a counter as text. A command that creates a key
gives it no deadline, one that changes a key leaves its deadline alone.

The lemmas say for each command what it does to the key it names and that it leaves the other keys
and the clock alone.
-/

namespace FaceRecognition.Redis

open Relational

namespace Collections

/-! ### Fields of a hash -/

instance : PrimaryKey (String × String) String := ⟨Prod.fst⟩

abbrev Fields := List (String × String)

/-- `data.get(name)` -/
def Fields.text (data : Fields) (name : String) : Option String :=
  (data.find? fun f => pk f = name).map Prod.snd

def Fields.assign (data : Fields) (mapping : Fields) : Fields :=
  mapping.foldl (fun data f => Table.upsert f data) data

@[simp] theorem Fields.text_upsert (data : Fields) (f : String × String) (name : String) :
    Fields.text (Table.upsert f data) name = if f.1 = name then some f.2 else data.text name := by
  unfold Fields.text
  rw [Table.find?_upsert]
  show Option.map Prod.snd (if f.1 = name then some f else _) = _
  by_cases h : f.1 = name
  · rw [if_pos h, if_pos h]
    rfl
  · rw [if_neg h, if_neg h]

@[simp] theorem Fields.assign_nil (data : Fields) : data.assign [] = data := rfl

@[simp] theorem Fields.assign_cons (data : Fields) (f : String × String) (mapping : Fields) :
    data.assign (f :: mapping) = Fields.assign (Table.upsert f data) mapping := rfl

/-- A text that Redis takes for an integer: the decimal one that `str` writes. -/
def storedInt (text : String) : Option ℤ := (readInt text).filter fun n => toString n = text

theorem storedInt_toString (n : ℤ) : storedInt (toString n) = some n := by
  rw [storedInt, readInt_toString]
  simp

/-! ### The commands -/

/-- The elements from `start` to `stop`, both counted from the end when negative. -/
def slice (start stop : ℤ) (items : List String) : List String :=
  let position : ℤ → ℤ := fun i => if i < 0 then items.length + i else i
  (items.take (position stop + 1).toNat).drop (position start).toNat

/-- What a pipeline can queue. -/
inductive Queued where
  | rpush (key item : String)
  | ltrim (key : String) (start stop : ℤ)
  | expire (key : String) (seconds : ℤ)
  deriving DecidableEq, Repr

inductive Cmd where
  | hset (key : String) (mapping : Fields)
  | hincrby (key field : String) (increment : ℤ)
  | hgetall (key : String)
  | lrange (key : String) (start stop : ℤ)
  | expire (key : String) (seconds : ℤ)
  /-- `MULTI`, the queued commands, `EXEC` -/
  | multi (queue : List Queued)
  deriving DecidableEq, Repr

abbrev Cmd.Reply : Cmd → Type
  | .hset _ _ => Unit
  | .hincrby _ _ _ => ℤ
  | .hgetall _ => Fields
  | .lrange _ _ _ => List String
  | .expire _ _ => Bool
  | .multi _ => Unit

def hset (s : Server) (key : String) (mapping : Fields) : Server × Except Error Unit :=
  match s.keys key with
  | none => (s.set key (some ⟨.hash (Fields.assign [] mapping), none⟩), .ok ())
  | some e =>
    match e.value with
    | .hash data => (s.set key (some { e with value := .hash (Fields.assign data mapping) }), .ok ())
    | _ => (s, .error .wrongType)

/-- A missing hash or field counts from zero. The 64-bit range of counters is left out. -/
def hincrby (s : Server) (key field : String) (increment : ℤ) : Server × Except Error ℤ :=
  match s.keys key with
  | none => (s.set key (some ⟨.hash [(field, toString increment)], none⟩), .ok increment)
  | some e =>
    match e.value with
    | .hash data =>
      match storedInt ((Fields.text data field).getD "0") with
      | some n =>
        let data' := Table.upsert (field, toString (n + increment)) data
        (s.set key (some { e with value := .hash data' }), .ok (n + increment))
      | none => (s, .error .wrongType)
    | _ => (s, .error .wrongType)

/-- A missing hash is empty. -/
def hgetall (s : Server) (key : String) : Except Error Fields :=
  match s.keys key with
  | none => .ok []
  | some e =>
    match e.value with
    | .hash data => .ok data
    | _ => .error .wrongType

/-- A missing list is empty. -/
def lrange (s : Server) (key : String) (start stop : ℤ) : Except Error (List String) :=
  match s.keys key with
  | none => .ok []
  | some e =>
    match e.value with
    | .list items => .ok (slice start stop items)
    | _ => .error .wrongType

def rpush (s : Server) (key item : String) : Server × Except Error Unit :=
  match s.keys key with
  | none => (s.set key (some ⟨.list [item], none⟩), .ok ())
  | some e =>
    match e.value with
    | .list items => (s.set key (some { e with value := .list (items ++ [item]) }), .ok ())
    | _ => (s, .error .wrongType)

/-- A list that becomes empty is deleted. -/
def ltrim (s : Server) (key : String) (start stop : ℤ) : Server × Except Error Unit :=
  match s.keys key with
  | none => (s, .ok ())
  | some e =>
    match e.value with
    | .list items =>
      if slice start stop items = [] then (s.set key none, .ok ())
      else (s.set key (some { e with value := .list (slice start stop items) }), .ok ())
    | _ => (s, .error .wrongType)

def Queued.exec (s : Server) : Queued → Server × Except Error Unit
  | .rpush key item => Collections.rpush s key item
  | .ltrim key start stop => Collections.ltrim s key start stop
  | .expire key seconds => ((s.expire key seconds).1, .ok ())

/-- All queued commands are executed; the first error among the replies is raised. -/
def multi (s : Server) : List Queued → Server × Except Error Unit
  | [] => (s, .ok ())
  | c :: queue =>
    let first := c.exec s
    let rest := multi first.1 queue
    (rest.1, match first.2 with
      | .ok _ => rest.2
      | .error e => .error e)

def exec (s : Server) : (c : Cmd) → Server × Except Error c.Reply
  | .hset key mapping => hset s key mapping
  | .hincrby key field increment => hincrby s key field increment
  | .hgetall key => (s, hgetall s key)
  | .lrange key start stop => (s, lrange s key start stop)
  | .expire key seconds => ((s.expire key seconds).1, .ok (s.expire key seconds).2)
  | .multi queue => multi s queue

abbrev Prog := Client.Prog Cmd fun c => Except Error c.Reply

/-! ### The commands and the clock -/

theorem Queued.exec_clock (s : Server) (c : Queued) : (c.exec s).1.clock = s.clock := by
  cases c with
  | rpush key item =>
    show (Collections.rpush s key item).1.clock = s.clock
    unfold Collections.rpush
    split
    · rfl
    · split <;> rfl
  | ltrim key start stop =>
    show (Collections.ltrim s key start stop).1.clock = s.clock
    unfold Collections.ltrim
    split
    · rfl
    · split
      · split_ifs <;> rfl
      · rfl
  | expire key seconds => exact expire_clock s key seconds

theorem multi_clock (s : Server) (queue : List Queued) : (multi s queue).1.clock = s.clock := by
  induction queue generalizing s with
  | nil => rfl
  | cons c queue ih => exact (ih _).trans (c.exec_clock s)

theorem exec_clock (s : Server) (c : Cmd) : (exec s c).1.clock = s.clock := by
  cases c with
  | hset key mapping =>
    show (hset s key mapping).1.clock = s.clock
    unfold hset
    split
    · rfl
    · split <;> rfl
  | hincrby key field increment =>
    show (hincrby s key field increment).1.clock = s.clock
    unfold hincrby
    split
    · rfl
    · split
      · split <;> rfl
      · rfl
  | hgetall key => rfl
  | lrange key start stop => rfl
  | expire key seconds => exact expire_clock s key seconds
  | multi queue => exact multi_clock s queue

/-! ### The commands and the other keys -/

theorem hset_of_ne (s : Server) {key key' : String} (mapping : Fields) (h : key ≠ key') :
    (hset s key' mapping).1.keys key = s.keys key := by
  unfold hset
  split
  · exact s.set_of_ne _ h
  · split
    · exact s.set_of_ne _ h
    · rfl

theorem hincrby_of_ne (s : Server) {key key' : String} (field : String) (increment : ℤ)
    (h : key ≠ key') : (hincrby s key' field increment).1.keys key = s.keys key := by
  unfold hincrby
  split
  · exact s.set_of_ne _ h
  · split
    · split
      · exact s.set_of_ne _ h
      · rfl
    · rfl

theorem rpush_of_ne (s : Server) {key key' : String} (item : String) (h : key ≠ key') :
    (rpush s key' item).1.keys key = s.keys key := by
  unfold rpush
  split
  · exact s.set_of_ne _ h
  · split
    · exact s.set_of_ne _ h
    · rfl

theorem ltrim_of_ne (s : Server) {key key' : String} (start stop : ℤ) (h : key ≠ key') :
    (ltrim s key' start stop).1.keys key = s.keys key := by
  unfold ltrim
  split
  · rfl
  · split
    · split_ifs <;> exact s.set_of_ne _ h
    · rfl

/-- A pipeline that pushes, trims and sets the time-to-live. -/
theorem push_of_ne (s : Server) {key key' : String} (item : String) (start stop seconds : ℤ)
    (h : key ≠ key') :
    (multi s [.rpush key' item, .ltrim key' start stop, .expire key' seconds]).1.keys key =
      s.keys key := by
  show (((ltrim (rpush s key' item).1 key' start stop).1.expire key' seconds).1).keys key = _
  rw [expire_of_ne _ _ h, ltrim_of_ne _ _ _ h, rpush_of_ne _ _ h]

/-! ### The commands and the deadlines -/

/-- The deadline of the key, if the key is there. -/
def deadlineOf (s : Server) (key : String) : Option (Option ℚ) := (s.keys key).map Entry.deadline

theorem expiresWithin_of_deadlineOf {s s' : Server} {key : String} {seconds : ℤ}
    (h : ExpiresWithin s key seconds) (hclock : s'.clock = s.clock)
    (hdeadline : deadlineOf s' key = deadlineOf s key) : ExpiresWithin s' key seconds := by
  unfold deadlineOf at hdeadline
  rcases h with h | ⟨e, d, he, hd, hle⟩
  · rw [h] at hdeadline
    exact .inl (Option.map_eq_none_iff.1 hdeadline)
  · rw [he] at hdeadline
    obtain ⟨e', he', hd'⟩ := Option.map_eq_some_iff.1 hdeadline
    exact .inr ⟨e', d, he', hd'.trans hd, by rwa [hclock]⟩

theorem hset_deadlineOf (s : Server) (key : String) (mapping : Fields) :
    deadlineOf (hset s key mapping).1 key = some ((deadlineOf s key).getD none) := by
  unfold hset deadlineOf
  cases hk : s.keys key with
  | none => simp
  | some e =>
    obtain ⟨v, d⟩ := e
    cases v <;> simp [hk]

/-- An `HSET` that fails changes nothing. -/
theorem hset_error {s : Server} {key : String} {mapping : Fields} {e : Error}
    (h : (hset s key mapping).2 = .error e) : (hset s key mapping).1 = s := by
  unfold hset at h ⊢
  cases hk : s.keys key with
  | none => simp [hk] at h
  | some entry =>
    obtain ⟨v, d⟩ := entry
    cases v with
    | hash data => simp [hk] at h
    | _ => rfl

theorem hincrby_deadlineOf (s : Server) (key field : String) (increment : ℤ) :
    deadlineOf (hincrby s key field increment).1 key = some ((deadlineOf s key).getD none) := by
  unfold hincrby deadlineOf
  cases hk : s.keys key with
  | none => simp
  | some e =>
    obtain ⟨v, d⟩ := e
    cases v with
    | hash data =>
      dsimp only
      cases storedInt ((Fields.text data field).getD "0") <;> simp [hk]
    | _ => simp [hk]

theorem push_expiresWithin (s : Server) (key item : String) (start stop seconds : ℤ) :
    ExpiresWithin (multi s [.rpush key item, .ltrim key start stop, .expire key seconds]).1 key
      seconds :=
  expire_expiresWithin (ltrim (rpush s key item).1 key start stop).1 key seconds

/-! ### The commands on a key that is there -/

section
variable {s : Server} {key : String} {deadline : Option ℚ}

theorem exec_hset {data : Fields} (h : s.keys key = some ⟨.hash data, deadline⟩)
    (mapping : Fields) : exec s (.hset key mapping) =
      (s.set key (some ⟨.hash (data.assign mapping), deadline⟩), .ok ()) := by
  simp [exec, hset, h]

theorem exec_hset_new (h : s.keys key = none) (mapping : Fields) :
    exec s (.hset key mapping) =
      (s.set key (some ⟨.hash (Fields.assign [] mapping), none⟩), .ok ()) := by
  simp [exec, hset, h]

theorem exec_hincrby {data : Fields} {field : String} {n : ℤ}
    (h : s.keys key = some ⟨.hash data, deadline⟩) (hn : data.text field = some (toString n))
    (increment : ℤ) : exec s (.hincrby key field increment) =
      (s.set key (some ⟨.hash (Table.upsert (field, toString (n + increment)) data), deadline⟩),
        .ok (n + increment)) := by
  simp only [exec, hincrby, h, hn, Option.getD_some, storedInt_toString]

theorem exec_expire {e : Entry} (h : s.keys key = some e) {seconds : ℤ} (hpos : 0 < seconds) :
    exec s (.expire key seconds) =
      (s.set key (some { e with deadline := some (s.clock + seconds) }), .ok true) := by
  simp [exec, Server.expire, h, not_le.2 hpos]

theorem exec_hgetall {data : Fields} (h : s.keys key = some ⟨.hash data, deadline⟩) :
    exec s (.hgetall key) = (s, .ok data) := by
  simp [exec, hgetall, h]

/-- The list under `key`; there are no empty lists. -/
def ListAt (s : Server) (key : String) (items : List String) : Prop :=
  (items = [] ∧ s.keys key = none) ∨
    (items ≠ [] ∧ ∃ deadline, s.keys key = some ⟨.list items, deadline⟩)

theorem exec_lrange {items : List String} (h : ListAt s key items) :
    exec s (.lrange key 0 (-1)) = (s, .ok items) := by
  rcases h with ⟨rfl, hk⟩ | ⟨-, deadline, hk⟩
  · simp [exec, lrange, hk]
  · simp [exec, lrange, hk, slice]

theorem slice_zero {n : ℕ} (items : List String) : slice 0 n items = items.take (n + 1) := by
  have hpos : ¬ ((n : ℤ) < 0) := by omega
  have hsize : ((n : ℤ) + 1).toNat = n + 1 := by omega
  simp only [slice, if_neg hpos, hsize]
  rfl

/-- Pushing to a list that keeps its first `cap` items. -/
theorem exec_push {items : List String} (h : ListAt s key items) (item : String) (n : ℕ)
    {seconds : ℤ} (hpos : 0 < seconds) :
    exec s (.multi [.rpush key item, .ltrim key 0 n, .expire key seconds]) =
      (s.set key (some ⟨.list ((items ++ [item]).take (n + 1)), some (s.clock + seconds)⟩),
        .ok ()) := by
  have htake : (items ++ [item]).take (n + 1) ≠ [] := by cases items <;> simp
  obtain ⟨deadline, hpush⟩ : ∃ deadline, rpush s key item =
      (s.set key (some ⟨.list (items ++ [item]), deadline⟩), .ok ()) := by
    rcases h with ⟨rfl, hk⟩ | ⟨-, deadline, hk⟩
    · exact ⟨none, by simp [rpush, hk]⟩
    · exact ⟨deadline, by simp [rpush, hk]⟩
  have htrim : ltrim (s.set key (some ⟨.list (items ++ [item]), deadline⟩)) key 0 n =
      (s.set key (some ⟨.list ((items ++ [item]).take (n + 1)), deadline⟩), .ok ()) := by
    simp only [ltrim, Server.set_same, slice_zero, if_neg htake, Server.set_set]
  have hexpire : (s.set key (some ⟨.list ((items ++ [item]).take (n + 1)), deadline⟩)).expire key
      seconds = (s.set key (some ⟨.list ((items ++ [item]).take (n + 1)),
        some (s.clock + seconds)⟩), true) := by
    simp only [Server.expire, Server.set_same, if_neg (not_le.2 hpos), Server.set_set]
    rfl
  simp only [exec, multi, Queued.exec, hpush, htrim, hexpire]

end

end Collections

end FaceRecognition.Redis
