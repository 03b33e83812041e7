import Mathlib.Data.List.Induction
import FaceRecognition.Api.KeyRequests

/-!
# Histories of keys

What the operations answered so far say about a key: whether it is out, that is created and not
revoked since (`Holds`), and how much of its budget is spent (`InBudget`). `out` computes the keys
that are out.
-/

namespace FaceRecognition.Api

open Relational Db UnitOfWork RateLimit

abbrev KeyEvent := KeyOp × KeyAnswer

/-! ### What a history says about a key -/

/-- The id and the raw key that the event returns. -/
def issued : KeyEvent → Option (UUID × String)
  | (_, .created (.ok r)) => some (r.id, r.key)
  | _ => none

def revoked : KeyEvent → Option UUID
  | (.revoke _ keyId, .revoked (.ok _)) => some keyId
  | _ => none

/-- The time at which the raw key is admitted. -/
def passed (raw : String) : KeyEvent → Option ℚ
  | (.external c _ _ (some key), .admitted (.ok _)) => if key = raw then some c.monotonic else none
  | _ => none

/-- The raw key was returned by a creation and not revoked since. -/
def Holds (past : List KeyEvent) (raw : String) : Prop :=
  ∃ pre e post id, past = pre ++ e :: post ∧ issued e = some (id, raw) ∧
    ∀ e' ∈ post, revoked e' ≠ some id

/-- A window, by its start, and how many requests it has admitted. -/
abbrev Window := ℚ × ℕ

def grant (window : ℚ) : Option Window → ℚ → Option Window
  | none, now => some (now, 1)
  | some (start, n), now => if window ≤ now - start then some (now, 1) else some (start, n + 1)

/-- The window that the last of the requests was admitted in. -/
def lastWindow (window : ℚ) (past : List KeyEvent) (raw : String) : Option Window :=
  (past.filterMap (passed raw)).foldl (grant window) none

/-- How many requests were admitted since the start of the window that is current at `now`. -/
def spent (window now : ℚ) : Option Window → ℕ
  | none => 0
  | some (start, n) => if window ≤ now - start then 0 else n

def InBudget (cfg : KeySettings) (past : List KeyEvent) (raw : String) (now : ℚ) : Prop :=
  (spent (parseRate cfg.externalRateLimit).2 now
    (lastWindow (parseRate cfg.externalRateLimit).2 past raw) : ℤ) <
      (parseRate cfg.externalRateLimit).1

theorem lastWindow_concat (window : ℚ) (past : List KeyEvent) (e : KeyEvent) (raw : String) :
    lastWindow window (past ++ [e]) raw =
      match passed raw e with
      | none => lastWindow window past raw
      | some now => grant window (lastWindow window past raw) now := by
  rw [lastWindow, List.filterMap_append, List.foldl_append]
  cases hpassed : passed raw e with
  | none => simp [hpassed, lastWindow]
  | some now => simp [hpassed, lastWindow]

/-! ### The keys that are out -/

/-- The ids and raw keys that are out, in the order in which they were issued. -/
def out (past : List KeyEvent) : List (UUID × String) :=
  past.foldl (fun keys e => (keys.filter fun k => revoked e ≠ some k.1) ++ (issued e).toList) []

theorem out_concat (past : List KeyEvent) (e : KeyEvent) :
    out (past ++ [e]) = ((out past).filter fun k => revoked e ≠ some k.1) ++ (issued e).toList := by
  rw [out, List.foldl_append]
  rfl

theorem mem_out_concat {past : List KeyEvent} {e : KeyEvent} {k : UUID × String} :
    k ∈ out (past ++ [e]) ↔ k ∈ out past ∧ revoked e ≠ some k.1 ∨ issued e = some k := by
  rw [out_concat, List.mem_append, List.mem_filter, Option.mem_toList]
  simp

/-- A key is out iff a creation has returned it and no later event has revoked it. -/
theorem mem_out_iff {past : List KeyEvent} {id : UUID} {raw : String} :
    (id, raw) ∈ out past ↔ ∃ pre e post, past = pre ++ e :: post ∧ issued e = some (id, raw) ∧
      ∀ e' ∈ post, revoked e' ≠ some id := by
  induction past using List.reverseRecOn with
  | nil => simp [out]
  | append_singleton past e ih =>
    rw [mem_out_concat, ih]
    constructor
    · rintro (⟨⟨pre, e', post, rfl, hissued, hpost⟩, hrevoked⟩ | hissued)
      · refine ⟨pre, e', post ++ [e], by simp, hissued, fun e'' he'' => ?_⟩
        rcases List.mem_append.1 he'' with he'' | he''
        · exact hpost e'' he''
        · rwa [List.mem_singleton.1 he'']
      · exact ⟨past, e, [], rfl, hissued, fun _ h => absurd h List.not_mem_nil⟩
    · rintro ⟨pre, e', post, hsplit, hissued, hpost⟩
      rcases List.eq_nil_or_concat post with rfl | ⟨post, e'', rfl⟩
      · obtain ⟨rfl, he⟩ := List.append_inj' hsplit rfl
        obtain rfl := List.singleton_inj.1 he
        exact .inr hissued
      · rw [List.concat_eq_append, ← List.cons_append, ← List.append_assoc] at hsplit
        obtain ⟨rfl, he⟩ := List.append_inj' hsplit rfl
        obtain rfl := List.singleton_inj.1 he
        refine .inl ⟨⟨pre, e', post, rfl, hissued, fun e'' he'' => hpost e'' (by simp [he''])⟩, ?_⟩
        exact hpost e (by simp)

theorem holds_iff {past : List KeyEvent} {raw : String} :
    Holds past raw ↔ ∃ id, (id, raw) ∈ out past := by
  simp only [mem_out_iff]
  constructor
  · rintro ⟨pre, e, post, id, h⟩
    exact ⟨id, pre, e, post, h⟩
  · rintro ⟨id, pre, e, post, h⟩
    exact ⟨pre, e, post, id, h⟩

theorem issued_of_out {past : List KeyEvent} {k : UUID × String} (h : k ∈ out past) :
    ∃ e ∈ past, issued e = some k := by
  obtain ⟨pre, e, post, rfl, hissued, -⟩ := mem_out_iff.1 h
  exact ⟨e, by simp, hissued⟩

/-! ### Fresh keys -/

def creations (ops : List KeyOp) : List KeyContext :=
  ops.filterMap fun
    | .create c _ _ => some c
    | _ => none

/-- The strings that are hashed. -/
def KeyOp.strings : KeyOp → List String
  | .create c _ _ => [apiKeyPrefix ++ c.token]
  | .revoke _ _ => []
  | .external _ _ _ key => key.toList.filter fun s => s ≠ ""

/-- Ids and tokens are drawn once, and no two of the strings hashed have the same hash. -/
structure Fresh (cfg : KeySettings) (ops : List KeyOp) : Prop where
  ids : ((creations ops).map KeyContext.keyId).Nodup
  tokens : ((creations ops).map KeyContext.token).Nodup
  hashes : Set.InjOn cfg.hashApiKey {s | ∃ op ∈ ops, s ∈ op.strings}

theorem Fresh.sublist {cfg : KeySettings} {ops ops' : List KeyOp} (h : Fresh cfg ops)
    (hsub : ops'.Sublist ops) : Fresh cfg ops' where
  ids := h.ids.sublist ((hsub.filterMap _).map _)
  tokens := h.tokens.sublist ((hsub.filterMap _).map _)
  hashes := by
    refine h.hashes.mono ?_
    rintro s ⟨op, hop, hs⟩
    exact ⟨op, hsub.subset hop, hs⟩

theorem mem_creations {ops : List KeyOp} {c : KeyContext} :
    c ∈ creations ops ↔ ∃ name createdBy, .create c name createdBy ∈ ops := by
  simp only [creations, List.mem_filterMap]
  constructor
  · rintro ⟨op, hop, hc⟩
    cases op with
    | create c' name createdBy =>
      cases hc
      exact ⟨name, createdBy, hop⟩
    | revoke c' keyId => cases hc
    | external c' S image key => cases hc
  · rintro ⟨name, createdBy, hop⟩
    exact ⟨_, hop, rfl⟩

theorem creations_create (ops : List KeyOp) (c : KeyContext) (name : String)
    (createdBy : Option String) (rest : List KeyOp) :
    creations (ops ++ .create c name createdBy :: rest) =
      creations ops ++ c :: creations rest := by
  simp [creations]

/-! ### Requests with other headers -/

/-- The operations that are not requests with other headers. -/
def concerns (header : Option String) : KeyOp → Bool
  | .external _ _ _ key => key = header
  | _ => true

theorem external_of_not_concerns {header : Option String} {op : KeyOp}
    (h : concerns header op = false) : ∃ c S image key, op = .external c S image key ∧
      key ≠ header := by
  cases op with
  | create c name createdBy => cases h
  | revoke c keyId => cases h
  | external c S image key => exact ⟨c, S, image, key, rfl, by simpa [concerns] using h⟩

/-- The past without the requests with other headers. -/
def concerning (header : Option String) (past : List KeyEvent) : List KeyEvent :=
  past.filter fun e => concerns header e.1

theorem concerning_concat (header : Option String) (past : List KeyEvent) (e : KeyEvent) :
    concerning header (past ++ [e]) =
      if concerns header e.1 then concerning header past ++ [e] else concerning header past := by
  rw [concerning, List.filter_append]
  split_ifs with h <;> simp [concerning, h]

theorem lastWindow_concerning (window : ℚ) (past : List KeyEvent) (raw : String) :
    lastWindow window (concerning (some raw) past) raw = lastWindow window past raw := by
  induction past using List.reverseRecOn with
  | nil => rfl
  | append_singleton past e ih =>
    rw [concerning_concat]
    split_ifs with hkeep
    · rw [lastWindow_concat, lastWindow_concat, ih]
    · obtain ⟨c, S, image, key, hop, hkey⟩ := external_of_not_concerns (Bool.eq_false_iff.2 hkeep)
      have hpassed : Api.passed raw e = none := by
        obtain ⟨op, a⟩ := e
        obtain rfl : op = _ := hop
        cases key with
        | none => rfl
        | some key =>
          have hne : key ≠ raw := fun he => hkey (congrArg some he)
          cases a with
          | created r => rfl
          | revoked r => rfl
          | admitted r => cases r <;> simp [Api.passed, hne]
      rw [lastWindow_concat, hpassed, ih]

end FaceRecognition.Api
