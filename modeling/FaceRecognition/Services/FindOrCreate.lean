import FaceRecognition.Services.EnrolmentProtocol

/-!
# Find or create

Nothing in the schema makes names unique, and no lock is taken on a name: two transactions that look
it up before either commits both create a person. After every run of any number of requests and
imports on a name that nobody had, at most one person has it, and all faces enrolled under it are
that person's, exactly when no client has published a person with the name between the lookup of
another one that found nobody and that one's commit (`created_once_iff`).

`Traced` ties the state to the steps that have led to it: a client that is about to publish a person
with the name has looked it up in vain before, and since then either nobody has the name still, or
another client has published one.
-/

namespace FaceRecognition.Services.FindOrCreate

open Relational Recognition Db ReadCommitted Statementwise

variable {T : Type} [DecidableEq T]

/-! ### The race -/

/-- A call of a client in a run, with the state before it. -/
abbrev Event (T : Type) := World T × T × Option Exc

/-- The client looks the name up and finds nobody. -/
def FindsNobody (name : String) (e : Event T) : Prop :=
  e.2.2 = none ∧ ∃ next x, e.1.client e.2.1 = .call (.query name) next ∧
    e.1.server.txns.get? e.2.1 = some x ∧ postgres.look name (view engine e.1.server x) = none

/-- The client commits a person with the name. -/
def Publishes (name : String) (e : Event T) : Prop :=
  e.2.2 = none ∧ ∃ next x p, e.1.client e.2.1 = .call .commit next ∧
    e.1.server.txns.get? e.2.1 = some x ∧ .putPerson p ∈ x.writes ∧ p.fullName = name

/-- A client has looked the name up in vain, then another one commits a person with the name, and
later the first one commits one too. -/
def Overlap (name : String) (tr : List (Event T)) : Prop :=
  ∃ a b c, [a, b, c].Sublist tr ∧ FindsNobody name a ∧ Publishes name b ∧ Publishes name c ∧
    a.2.1 = c.2.1 ∧ b.2.1 ≠ c.2.1

def Named (name : String) (db : Database) : Prop := ∃ p ∈ db.persons.rows, p.fullName = name

/-- The client may be about to publish a person with the name. -/
def Holds (name : String) (s : State T Database Write) (K : T → Knowledge) (t : T) : Prop :=
  (K t).missed = some name ∨
    ∃ x p, s.txns.get? t = some x ∧ .putPerson p ∈ x.writes ∧ p.fullName = name

structure Traced (name : String) (tr : List (Event T)) (s : State T Database Write)
    (K : T → Knowledge) : Prop where
  looked : ∀ t, Holds name s K t → ∃ a ∈ tr, FindsNobody name a ∧ a.2.1 = t ∧
    (¬ Named name s.committed ∨ ∃ b, [a, b].Sublist tr ∧ Publishes name b ∧ b.2.1 ≠ t)
  once : (∀ p ∈ s.committed.persons.rows, ∀ q ∈ s.committed.persons.rows, p.fullName = name →
    q.fullName = name → p = q) ∨ Overlap name tr
  named : ∀ b ∈ tr, Publishes name b → Named name s.committed
  twice : ∀ b c, [b, c].Sublist tr → Publishes name b → Publishes name c →
    ∃ p ∈ s.committed.persons.rows, ∃ q ∈ s.committed.persons.rows, p ≠ q ∧ p.fullName = name ∧
      q.fullName = name

omit [DecidableEq T] in
theorem pair_sublist_concat {b c e : Event T} {tr : List (Event T)}
    (h : [b, c].Sublist (tr ++ [e])) : [b, c].Sublist tr ∨ b ∈ tr ∧ c = e := by
  obtain ⟨l, l', hl, htr, he⟩ := List.sublist_append_iff.1 h
  rcases List.sublist_singleton.1 he with rfl | rfl
  · rw [List.append_nil] at hl
    exact .inl (hl ▸ htr)
  · have hl : [b] ++ [c] = l ++ [e] := hl
    obtain ⟨rfl, hc⟩ := List.append_inj' hl rfl
    exact .inr ⟨List.singleton_sublist.1 htr, List.singleton_inj.1 hc⟩

theorem Overlap.extend {name : String} {tr : List (Event T)} (h : Overlap name tr) (e : Event T) :
    Overlap name (tr ++ [e]) := by
  obtain ⟨a, b, c, habc, hrest⟩ := h
  exact ⟨a, b, c, habc.trans (List.sublist_append_left tr [e]), hrest⟩

section traced
variable {requests : T → Request} {db₀ : Database} {name : String} {w : World T}
  {s' : State T Database Write} {K : T → Knowledge} {t : T} {fault : Option Exc} {c : Command}
  {r : Call.Reply (Option Person) Exc c}
  {next : Call.Reply (Option Person) Exc c → Request.Program}

/-- The named persons are those of before, or the call has published one. -/
theorem named_served (hi : Inv requests db₀ w.server w.client K)
    (hclient : w.client t = .call c next) (h : Served postgres t w.server fault c s' r) :
    (∀ p ∈ s'.committed.persons.rows, p.fullName = name → p ∈ w.server.committed.persons.rows) ∨
      Publishes name (w, t, fault) := by
  rcases h.committed_cases with hsame | ⟨x, rfl, hfault, hx, hview⟩
  · rw [hsame]
    exact .inl fun p hp _ => hp
  · have hpending := hi.pending x (Table.get?_eq_some.1 hx).1
    by_cases hput : ∃ p, .putPerson p ∈ x.writes ∧ p.fullName = name
    · obtain ⟨p, hp, hname⟩ := hput
      exact .inr ⟨hfault, next, x, p, hclient, hx, hp, hname⟩
    · refine .inl fun p hp hname => ?_
      rw [hview] at hp
      rcases hpending.person_iff.1 (Table.mem_iff_get?.1 hp) with hold | ⟨hnew, -⟩
      · exact (Table.get?_eq_some.1 hold).1
      · exact absurd ⟨p, hnew, hname⟩ hput

/-- Nobody is removed. -/
theorem persons_served (hi : Inv requests db₀ w.server w.client K)
    (h : Served postgres t w.server fault c s' r) {p : Person}
    (hp : p ∈ w.server.committed.persons.rows) : p ∈ s'.committed.persons.rows := by
  rcases h.committed_cases with hsame | ⟨x, -, -, hx, hview⟩
  · rwa [hsame]
  · rw [hview]
    have hpending := hi.pending x (Table.get?_eq_some.1 hx).1
    exact (Table.get?_eq_some.1 (hpending.keeps (Table.mem_iff_get?.1 hp))).1

/-- What is published is one new person. -/
theorem published_new (hi : Inv requests db₀ w.server w.client K)
    (hclient : w.client t = .call c next) (h : Served postgres t w.server fault c s' r)
    (hpub : Publishes name (w, t, fault)) :
    ∃ p ∈ s'.committed.persons.rows, p.fullName = name ∧
      p ∉ w.server.committed.persons.rows ∧ ∀ q ∈ s'.committed.persons.rows, q.fullName = name →
        q ∉ w.server.committed.persons.rows → q = p := by
  obtain ⟨hfault, next', x, p, hcall, hx, hput, hname⟩ := hpub
  cases hclient.symm.trans hcall
  have hpending := hi.pending x (Table.get?_eq_some.1 hx).1
  cases h with
  | renewed _ _ _ hc => exact hc.elim
  | failed _ _ _ hfail =>
    rcases hfail with hnone | hfail
    · exact absurd (hnone.symm.trans hx) (by simp)
    · exact absurd hfault hfail
  | aborted _ _ _ hfail =>
    rcases hfail with hfail | ⟨q, hq⟩
    · exact absurd hfault hfail
    · cases hq
  | committed y hy =>
    obtain rfl := Option.some.inj (hx.symm.trans hy)
    refine ⟨p, (Table.get?_eq_some.1 (hpending.seen p hput)).1, hname, fun hold => ?_,
      fun q hq hqname hnew => ?_⟩
    · exact absurd ((hpending.new p hput).symm.trans (Table.mem_iff_get?.1 hold)) (by simp)
    · rcases hpending.person_iff.1 (Table.mem_iff_get?.1 hq) with hold | ⟨hqput, -⟩
      · exact absurd (Table.get?_eq_some.1 hold).1 hnew
      · exact hpending.single q p hqput hput (hqname.trans hname.symm)

/-- A client comes to hold the name by finding nobody. -/
theorem holds_served (hi : Inv requests db₀ w.server w.client K)
    (hclient : w.client t = .call c next) (h : Served postgres t w.server fault c s' r)
    (hholds : Holds name s' (Function.update K t (learn (K t) c r)) t) :
    s'.committed = w.server.committed ∧ (Holds name w.server K t ∨
      FindsNobody name (w, t, fault) ∧ ¬ Named name w.server.committed) := by
  have hallowed : Allowed (requests t).drawn (K t) c := by
    have hobeys := hi.obeys t
    rw [hclient] at hobeys
    exact hobeys.1
  rw [Holds, Function.update_self] at hholds
  rcases hholds with hmissed | ⟨y, p, hy, hput, rfl⟩
  · obtain ⟨rfl, hfault, rfl, x, hx, hfound⟩ := queried_of_missed h hmissed
    refine ⟨rfl, .inr ⟨⟨hfault, next, x, hclient, hx, hfound⟩, ?_⟩⟩
    rintro ⟨p, hp, hname⟩
    have hpending := hi.pending x (Table.get?_eq_some.1 hx).1
    exact nobody_seen hfound (hpending.keeps (Table.mem_iff_get?.1 hp)) hname
  · obtain ⟨hcommitted, hmissed | ⟨x, hx, hput⟩⟩ := missed_of_written hallowed h hy hput
    · exact ⟨hcommitted, .inl (.inl hmissed)⟩
    · exact ⟨hcommitted, .inl (.inr ⟨x, p, hx, hput, rfl⟩)⟩

theorem holds_of_ne (h : Served postgres t w.server fault c s' r) {u : T} (hu : u ≠ t)
    (hholds : Holds name s' (Function.update K t (learn (K t) c r)) u) :
    Holds name w.server K u := by
  rw [Holds, Function.update_of_ne hu, h.get?_of_ne hu] at hholds
  exact hholds

theorem named_mono (hi : Inv requests db₀ w.server w.client K)
    (h : Served postgres t w.server fault c s' r) (hnamed : Named name w.server.committed) :
    Named name s'.committed := by
  obtain ⟨p, hp, hname⟩ := hnamed
  exact ⟨p, persons_served hi h hp, hname⟩

variable {tr : List (Event T)} (hi : Inv requests db₀ w.server w.client K)
  (ht : Traced name tr w.server K) (hclient : w.client t = .call c next)
  (h : Served postgres t w.server fault c s' r)
include hi ht hclient h

/-- The lookup of a client that holds the name after the call. -/
theorem looked_served {u : T}
    (hholds : Holds name s' (Function.update K t (learn (K t) c r)) u) :
    ∃ a ∈ tr ++ [(w, t, fault)], FindsNobody name a ∧ a.2.1 = u ∧ (¬ Named name s'.committed ∨
      ∃ b, [a, b].Sublist (tr ++ [(w, t, fault)]) ∧ Publishes name b ∧ b.2.1 ≠ u) := by
  by_cases hu : u = t
  · -- the client of the call
    obtain rfl := hu
    obtain ⟨hcommitted, hold | ⟨hfinds, hnobody⟩⟩ := holds_served hi hclient h hholds
    · obtain ⟨a, ha, hfinds, hau, hafter⟩ := ht.looked u hold
      refine ⟨a, List.mem_append_left _ ha, hfinds, hau, ?_⟩
      rw [hcommitted]
      rcases hafter with hnobody | ⟨b, hab, hb⟩
      · exact .inl hnobody
      · exact .inr ⟨b, hab.trans (List.sublist_append_left tr _), hb⟩
    · refine ⟨_, List.mem_append_right _ (List.mem_singleton.2 rfl), hfinds, rfl, ?_⟩
      rw [hcommitted]
      exact .inl hnobody
  · -- another client, whose name the call may publish
    obtain ⟨a, ha, hfinds, hau, hafter⟩ := ht.looked u (holds_of_ne h hu hholds)
    refine ⟨a, List.mem_append_left _ ha, hfinds, hau, ?_⟩
    rcases hafter with hnobody | ⟨b, hab, hb⟩
    · by_cases hnamed : Named name s'.committed
      · obtain ⟨p, hp, hname⟩ := hnamed
        rcases named_served hi hclient h with hold | hpub
        · exact absurd ⟨p, hold p hp hname, hname⟩ hnobody
        · have hab := (List.singleton_sublist.2 ha).append (List.Sublist.refl [(w, t, fault)])
          exact .inr ⟨_, hab, hpub, Ne.symm hu⟩
      · exact .inl hnamed
    · exact .inr ⟨b, hab.trans (List.sublist_append_left tr _), hb⟩

/-- A second person with the name is published only after an overlap. -/
theorem once_served :
    (∀ p ∈ s'.committed.persons.rows, ∀ q ∈ s'.committed.persons.rows, p.fullName = name →
      q.fullName = name → p = q) ∨ Overlap name (tr ++ [(w, t, fault)]) := by
  rcases ht.once with honce | hoverlap
  · rcases named_served hi hclient h with hold | hpub
    · exact .inl fun p hp q hq hpn hqn => honce p (hold p hp hpn) q (hold q hq hqn) hpn hqn
    · obtain ⟨p₀, -, -, -, hsingle⟩ := published_new hi hclient h hpub
      have hholds : Holds name w.server K t := by
        obtain ⟨-, -, x, p, -, hx, hput, hname⟩ := hpub
        exact .inr ⟨x, p, hx, hput, hname⟩
      obtain ⟨a, -, hfinds, hat, hnobody | ⟨b, hab, hb, hbt⟩⟩ := ht.looked t hholds
      · refine .inl fun p hp q hq hpn hqn => ?_
        have hp₀ := hsingle p hp hpn fun hold => hnobody ⟨p, hold, hpn⟩
        have hq₀ := hsingle q hq hqn fun hold => hnobody ⟨q, hold, hqn⟩
        exact hp₀.trans hq₀.symm
      · have habc := hab.append (List.Sublist.refl [(w, t, fault)])
        exact .inr ⟨a, b, _, habc, hfinds, hb, hpub, hat, hbt⟩
  · exact .inr (hoverlap.extend _)

/-- Two publications are of two persons. -/
theorem twice_served {b e : Event T} (hbe : [b, e].Sublist (tr ++ [(w, t, fault)]))
    (hb : Publishes name b) (he : Publishes name e) :
    ∃ p ∈ s'.committed.persons.rows, ∃ q ∈ s'.committed.persons.rows, p ≠ q ∧ p.fullName = name ∧
      q.fullName = name := by
  rcases pair_sublist_concat hbe with hbe | ⟨hbtr, rfl⟩
  · obtain ⟨p, hp, q, hq, hrest⟩ := ht.twice b e hbe hb he
    exact ⟨p, persons_served hi h hp, q, persons_served hi h hq, hrest⟩
  · obtain ⟨p, hp, hpn⟩ := ht.named b hbtr hb
    obtain ⟨q, hq, hqn, hnew, -⟩ := published_new hi hclient h he
    refine ⟨p, persons_served hi h hp, q, hq, ?_, hpn, hqn⟩
    rintro rfl
    exact hnew hp

theorem traced_served :
    Traced name (tr ++ [(w, t, fault)]) s' (Function.update K t (learn (K t) c r)) where
  looked _ hholds := looked_served hi ht hclient h hholds
  once := once_served hi ht hclient h
  named b hb hpub := by
    rcases List.mem_append.1 hb with hb | hb
    · exact named_mono hi h (ht.named b hb hpub)
    · obtain rfl := List.mem_singleton.1 hb
      obtain ⟨p, hp, hname, -⟩ := published_new hi hclient h hpub
      exact ⟨p, hp, hname⟩
  twice _ _ hbe hb he := twice_served hi ht hclient h hbe hb he

end traced

/-! ### All runs -/

abbrev step (w : World T) (l : T × Option Exc) : Option (World T) := turn postgres w l

section runs
variable {requests : T → Request} {db : Database} {name : String}

omit [DecidableEq T] in
theorem inv_start (hfresh : Fresh requests db) :
    Inv requests db (start db requests : World T).server (start db requests).client
      fun _ => .none where
  stored := by
    refine ⟨fun id p hp => .inl hp, fun f hf name hid => ?_⟩
    have hnew := hfresh.faceNew name f.id hid
    exact absurd (hnew.symm.trans (Table.mem_iff_get?.1 hf)) (by simp)
  pending x hx := by cases hx
  locks x hx := by cases hx
  obeys t := program_obeys (requests t)
  resolved t name id h := h.elim

theorem traced_start (hnobody : ∀ p ∈ db.persons.rows, p.fullName ≠ name) :
    Traced name [] (start db requests : World T).server fun _ => .none where
  looked t h := by
    rcases h with hmissed | ⟨x, p, hx, -⟩
    · cases hmissed
    · cases hx
  once := .inl fun p hp _ _ hname => absurd hname (hnobody p hp)
  named b hb := by cases hb
  twice b c h := by cases h

theorem run_traced (hfresh : Fresh requests db) (hnobody : ∀ p ∈ db.persons.rows, p.fullName ≠ name)
    {ls : List (T × Option Exc)} {w : World T}
    (hrun : Run.exec step (start db requests) ls = some w) :
    ∃ K, Inv requests db w.server w.client K ∧ Missed w.server K ∧
      Traced name (Run.trace step (start db requests) ls) w.server K := by
  refine Run.trace_inv (J := fun tr w => ∃ K, Inv requests db w.server w.client K ∧
    Missed w.server K ∧ Traced name tr w.server K) ?_ ?_ hrun
  · rintro tr w ⟨t, fault⟩ w' ⟨K, hi, hmissed, ht⟩ hstep
    obtain ⟨c, next, r, hclient, hserved, hupdate⟩ := turn_cases hstep
    refine ⟨Function.update K t (learn (K t) c r), ?_, ?_, ?_⟩
    · rw [hupdate]
      exact inv_served hi hfresh hmissed hclient hserved
    · exact missed_served hi hmissed hserved
    · exact traced_served hi ht hclient hserved
  · exact ⟨_, inv_start hfresh, fun t name x h => (by cases h), traced_start hnobody⟩

theorem created_once_iff (hfresh : Fresh requests db)
    (hnobody : ∀ p ∈ db.persons.rows, p.fullName ≠ name) {ls : List (T × Option Exc)} {w : World T}
    (hrun : Run.exec step (start db requests) ls = some w) :
    CreatedOnce requests name w.server.committed ↔
      ¬ Overlap name (Run.trace step (start db requests) ls) := by
  obtain ⟨K, hi, -, ht⟩ := run_traced hfresh hnobody hrun
  constructor
  · rintro ⟨honce, -⟩ ⟨a, b, c, habc, -, hb, hc, -⟩
    have hbc : [b, c].Sublist (Run.trace step (start db requests) ls) :=
      (List.sublist_cons_self a [b, c]).trans habc
    obtain ⟨p, hp, q, hq, hne, hpn, hqn⟩ := ht.twice b c hbc hb hc
    exact hne (honce p hp q hq hpn hqn)
  · intro hoverlap
    refine ⟨ht.once.resolve_right hoverlap, fun f hf hid => ?_⟩
    obtain ⟨p, hp, hname⟩ := hi.stored.faces f hf name hid
    obtain ⟨hmem, hpid⟩ := Table.get?_eq_some.1 hp
    exact ⟨p, hmem, hname, hpid.symm⟩

end runs

/-! ### Two registrations -/

/-- Two requests that enrol a face of Ada each. -/
def adaTwice (second : Bool) : Request :=
  .registerByName RecognitionService.oneFaceService
    (if second then ⟨0, 2, 2, 2, [], fun _ => none⟩ else ⟨0, 1, 1, 1, [], fun _ => none⟩)
    "Ada" [] none

theorem fresh_adaTwice : Fresh adaTwice Database.empty := by
  have hperson : ∀ name id, PersonIdOf adaTwice name id → name = strip "Ada" := by
    rintro name id ⟨t, d, hd, rfl, -⟩
    obtain rfl := List.mem_singleton.1 hd
    rfl
  have hface : ∀ name id, FaceIdOf adaTwice name id → name = strip "Ada" := by
    rintro name id ⟨t, d, hd, rfl, -⟩
    obtain rfl := List.mem_singleton.1 hd
    rfl
  refine ⟨fun _ _ _ => rfl, fun _ _ _ => rfl, fun name name' id h h' => ?_,
    fun name name' id h h' => ?_⟩
  · exact (hperson name id h).trans (hperson name' id h').symm
  · exact (hface name id h).trans (hface name' id h').symm

/-- The second request does its work between the lookup of the first one and the rest. -/
def racing : List (Bool × Option Exc) :=
  (List.replicate 2 false ++ List.replicate 7 true ++ List.replicate 5 false).map fun t => (t, none)

/-- The second request begins first and looks the name up when the first one has committed. -/
def crossing : List (Bool × Option Exc) :=
  (true :: List.replicate 6 false ++ [true, false] ++ List.replicate 4 true).map fun t => (t, none)

/-- After a run: the persons, the persons of the faces, and whether both requests have finished. -/
def outcome (ls : List (Bool × Option Exc)) : Option (List (UUID × String) × List UUID × Bool) :=
  (Run.exec step (start Database.empty adaTwice) ls).map fun w =>
    (w.server.committed.persons.rows.map fun p => (p.id, p.fullName),
      w.server.committed.faces.rows.map fun f => f.personId,
      (w.client false).finished && (w.client true).finished)

theorem created_twice :
    Fresh adaTwice Database.empty ∧ (∀ p ∈ Database.empty.persons.rows, p.fullName ≠ "Ada") ∧
      ∃ w, Run.exec step (start Database.empty adaTwice) racing = some w ∧
        (∀ t, (w.client t).finished = true) ∧ ¬ CreatedOnce adaTwice "Ada" w.server.committed := by
  have houtcome : outcome racing = some ([(2, "Ada"), (1, "Ada")], [2, 1], true) := by
    decide +kernel
  obtain ⟨w, hrun, hw⟩ := Option.map_eq_some_iff.1 houtcome
  obtain ⟨hpersons, -, hfinished⟩ := by simpa only [Prod.mk.injEq] using hw
  have hperson : ∀ r, r ∈ [((2 : UUID), "Ada"), (1, "Ada")] →
      ∃ p ∈ w.server.committed.persons.rows, (p.id, p.fullName) = r := fun r hr =>
    List.mem_map.1 (hpersons ▸ hr)
  refine ⟨fresh_adaTwice, fun p hp => (by cases hp), w, hrun, ?_, fun ⟨honce, _⟩ => ?_⟩
  · obtain ⟨hfirst, hsecond⟩ := Bool.and_eq_true_iff.1 hfinished
    intro t
    cases t with
    | false => exact hfirst
    | true => exact hsecond
  · obtain ⟨p, hp, hpr⟩ := hperson (2, "Ada") (by simp)
    obtain ⟨q, hq, hqr⟩ := hperson (1, "Ada") (by simp)
    obtain ⟨hpid, hpname⟩ := Prod.mk.inj hpr
    obtain ⟨hqid, hqname⟩ := Prod.mk.inj hqr
    have hpq := honce p hp q hq hpname hqname
    rw [hpq, hqid] at hpid
    cases hpid

theorem not_overlap_crossing :
    ¬ Overlap "Ada" (Run.trace step (start Database.empty adaTwice) crossing) := by
  have houtcome : outcome crossing = some ([(1, "Ada")], [1, 1], true) := by decide +kernel
  obtain ⟨w, hrun, hw⟩ := Option.map_eq_some_iff.1 houtcome
  obtain ⟨hpersons, hfaces, -⟩ := by simpa only [Prod.mk.injEq] using hw
  have hid : ∀ p ∈ w.server.committed.persons.rows, p.id = 1 := by
    intro p hp
    have hmem := List.mem_map_of_mem (f := fun p : Person => (p.id, p.fullName)) hp
    rw [hpersons, List.mem_singleton] at hmem
    exact (Prod.mk.inj hmem).1
  refine (created_once_iff fresh_adaTwice (fun p hp => by cases hp) hrun).1 ⟨?_, ?_⟩
  · intro p hp q hq _ _
    exact Table.eq_of_pk_eq _ hp hq ((hid p hp).trans (hid q hq).symm)
  · intro f hf _
    have hface := List.mem_map_of_mem (f := fun f : Face => f.personId) hf
    rw [hfaces] at hface
    obtain ⟨p, hp, hpr⟩ := List.mem_map.1 (hpersons ▸ List.mem_singleton.2 rfl)
    obtain ⟨hpid, hpname⟩ := Prod.mk.inj hpr
    exact ⟨p, hp, hpname, by simpa [hpid] using hface⟩

end FaceRecognition.Services.FindOrCreate
