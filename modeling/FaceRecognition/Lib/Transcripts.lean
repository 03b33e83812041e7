import Mathlib.Data.List.Induction
import FaceRecognition.Lib.Journal
import FaceRecognition.Lib.SessionPrograms

/-!
# What one client says in a run

The transcript of a client is the list of its calls with their replies. A program that keeps to a
rule on which calls may follow which replies does so in every run (`obeys_run`), and what the
journal has of a client can be read off its transcript (`journal_of_client`). So a property of a
request is proved from its program alone, and only then placed into a run of many.
-/

namespace ReadCommitted

open Relational UnitOfWork Client

variable {T Db W R A Q V Ex κ σ α : Type}

/-- A call with its reply. -/
abbrev Entry (A Q V Ex : Type) : Type := (c : Call A Q) × c.Reply V Ex

/-- What a client knows is what it has been told. -/
def record (h : List (Entry A Q V Ex)) (c : Call A Q) (r : c.Reply V Ex) : List (Entry A Q V Ex) :=
  h ++ [⟨c, r⟩]

abbrev SessionEvent (T Db W A Q V Ex α : Type) : Type :=
  World T Db W A Q V Ex α × (T × Option Ex)

section
variable [DecidableEq T] [DecidableEq R] (D : Dbms Db W R A Q V Ex)

/-- The call of an event, with its reply. -/
def entry (l : SessionEvent T Db W A Q V Ex α) : Option (Entry A Q V Ex) :=
  match l.1.client l.2.1 with
  | .pure _ => none
  | .call c _ => (serve D l.2.1 l.2.2 l.1.server c).map fun sr => ⟨c, sr.2⟩

def transcript (t : T) (tr : List (SessionEvent T Db W A Q V Ex α)) : List (Entry A Q V Ex) :=
  (tr.filter fun l => l.2.1 = t).filterMap (entry D)

end

section
variable [DecidableEq T] [DecidableEq R] {D : Dbms Db W R A Q V Ex} {t : T} {fault : Option Ex}
  {w w' : World T Db W A Q V Ex α} {tr : List (SessionEvent T Db W A Q V Ex α)}

theorem entry_turn {c : Call A Q} {next : c.Reply V Ex → Prog (Call A Q) (Call.Reply V Ex) α}
    (hclient : w.client t = .call c next) (h : turn D w (t, fault) = some w') :
    ∃ r, serve D t fault w.server c = some (w'.server, r) ∧ entry D (w, (t, fault)) = some ⟨c, r⟩ ∧
      w'.client = Function.update w.client t (next r) := by
  obtain ⟨s', r, hserve, rfl⟩ := turn_call hclient h
  refine ⟨r, hserve, ?_, rfl⟩
  simp only [entry, hclient, hserve, Option.map_some]

theorem transcript_concat_self {e : Entry A Q V Ex} (h : entry D (w, (t, fault)) = some e) :
    transcript D t (tr ++ [(w, (t, fault))]) = transcript D t tr ++ [e] := by
  rw [transcript, List.filter_append, List.filterMap_append, List.filter_cons_of_pos (by simp),
    List.filter_nil, List.filterMap_cons_some h]
  rfl

theorem transcript_concat_of_ne {u : T} (hu : u ≠ t) :
    transcript D t (tr ++ [(w, (u, fault))]) = transcript D t tr := by
  rw [transcript, List.filter_append, List.filter_cons_of_neg (by simp [hu]), List.filter_nil,
    List.append_nil]
  rfl

theorem serve_query {s s' : State T Db W} {a : A} {v : V}
    (h : serve D t fault s (.query a) = some (s', .ok v)) :
    s' = s ∧ fault = none ∧ ∃ x, s.txns.get? t = some x ∧ v = D.look a (view D.engine s x) := by
  simp only [serve] at h
  split at h
  · cases h
  next x hx =>
    cases fault with
    | some e => cases h
    | none =>
      cases h
      exact ⟨rfl, rfl, x, hx, rfl⟩

/-! ### Rules that programs keep -/

variable {allowed : T → List (Entry A Q V Ex) → Call A Q → Prop}
  {post : T → List (Entry A Q V Ex) → α → Prop}

/-- A client has made the calls of its transcript, each of them allowed, and goes on like that. -/
structure Obedient (D : Dbms Db W R A Q V Ex)
    (allowed : T → List (Entry A Q V Ex) → Call A Q → Prop)
    (post : T → List (Entry A Q V Ex) → α → Prop)
    (tr : List (SessionEvent T Db W A Q V Ex α)) (w : World T Db W A Q V Ex α) (t : T) : Prop where
  rest : (w.client t).Obeys (allowed t) record (transcript D t tr) (post t)
  past : ∀ pre e suf, transcript D t tr = pre ++ e :: suf → allowed t pre e.1

theorem Obedient.turn (h : ∀ t, Obedient D allowed post tr w t) {l : T × Option Ex}
    (hturn : ReadCommitted.turn D w l = some w') (t : T) :
    Obedient D allowed post (tr ++ [(w, l)]) w' t := by
  obtain ⟨u, fault⟩ := l
  obtain ⟨c, next, r, hclient, -, -⟩ := turn_cases hturn
  obtain ⟨r, -, hentry, hclient'⟩ := entry_turn hclient hturn
  by_cases hu : u = t
  · subst hu
    obtain ⟨hallowed, hnext⟩ : (Prog.call c next).Obeys (allowed u) record _ (post u) :=
      hclient ▸ (h u).rest
    refine ⟨?_, fun pre e suf hsplit => ?_⟩
    · rw [hclient', Function.update_self, transcript_concat_self hentry]
      exact hnext r
    · rw [transcript_concat_self hentry] at hsplit
      rcases List.eq_nil_or_concat suf with rfl | ⟨suf', e', rfl⟩
      · obtain ⟨hpre, he⟩ := List.append_inj' hsplit rfl
        obtain rfl := List.singleton_inj.1 he
        exact hpre ▸ hallowed
      · rw [List.concat_eq_append, ← List.cons_append, ← List.append_assoc] at hsplit
        exact (h u).past pre e suf' (List.append_inj' hsplit rfl).1
  · refine ⟨?_, fun pre e suf hsplit => ?_⟩
    · rw [hclient', Function.update_of_ne (Ne.symm hu), transcript_concat_of_ne hu]
      exact (h t).rest
    · rw [transcript_concat_of_ne hu] at hsplit
      exact (h t).past pre e suf hsplit

theorem obeys_run {db : Db} {client : T → Prog (Call A Q) (Call.Reply V Ex) α}
    (hclient : ∀ t, (client t).Obeys (allowed t) record [] (post t)) {ls : List (T × Option Ex)}
    (hrun : Run.exec (ReadCommitted.turn D) ⟨⟨db, Table.empty⟩, client⟩ ls = some w) (t : T) :
    Obedient D allowed post
      (Run.trace (ReadCommitted.turn D) ⟨⟨db, Table.empty⟩, client⟩ ls) w t := by
  have hstart : ∀ t, Obedient D allowed post [] ⟨⟨db, Table.empty⟩, client⟩ t := fun t =>
    ⟨hclient t, fun pre e suf h => by cases pre <;> cases h⟩
  exact Run.trace_inv (J := fun tr w => ∀ t, Obedient D allowed post tr w t)
    (fun tr w l w' h hturn => Obedient.turn h hturn) hstart hrun t

/-- Statements are only allowed to those who have executed none. -/
def WritesOnce (allowed : T → List (Entry A Q V Ex) → Call A Q → Prop) : Prop :=
  ∀ t h q, allowed t h (.flush q) → ∀ e ∈ h, ∀ q', e.1 ≠ .flush q'

/-! ### The journal of one client -/

variable {changes : Q → Db → List (Change κ σ)}

/-- The changes of the statement that `l` executes. -/
def made (D : Dbms Db W R A Q V Ex) (changes : Q → Db → List (Change κ σ))
    (l : SessionEvent T Db W A Q V Ex α) : List (Change κ σ) :=
  match l.1.client l.2.1, l.1.server.txns.get? l.2.1 with
  | .call (.flush q) _, some x => changes q (view D.engine l.1.server x)
  | _, _ => []

/-- The calls of `t`, each with its reply and the changes it makes when it succeeds. -/
def remarks (D : Dbms Db W R A Q V Ex) (changes : Q → Db → List (Change κ σ)) (t : T)
    (tr : List (SessionEvent T Db W A Q V Ex α)) : List (Entry A Q V Ex × List (Change κ σ)) :=
  (tr.filter fun l => l.2.1 = t).filterMap fun l => (entry D l).map fun e => (e, made D changes l)

/-- What a client has published, and what it has made in its open transaction. -/
def settle (o : List (Change κ σ) × List (Change κ σ)) :
    Entry A Q V Ex × List (Change κ σ) → List (Change κ σ) × List (Change κ σ)
  | (⟨.begin, _⟩, _) | (⟨.close, _⟩, _) | (⟨.rollback, .ok _⟩, _) => (o.1, [])
  | (⟨.flush _, .ok _⟩, cs) => (o.1, o.2 ++ cs)
  | (⟨.commit, .ok _⟩, _) => (o.1 ++ o.2, [])
  | (⟨.query _, _⟩, _) | (⟨.rollback, .error _⟩, _) | (⟨.flush _, .error _⟩, _)
  | (⟨.commit, .error _⟩, _) => o

def settled (rs : List (Entry A Q V Ex × List (Change κ σ))) :
    List (Change κ σ) × List (Change κ σ) := rs.foldl settle ([], [])

/-- What the journal has of `t`. -/
def Journal.ofClient (j : Journal T κ σ) (t : T) : List (Change κ σ) × List (Change κ σ) :=
  ((j.published.filter fun e => e.1 = t).map Prod.snd, j.pending t)

namespace Journal

omit [DecidableEq R] in
theorem ofClient_clear (j : Journal T κ σ) (t : T) :
    (j.clear t).ofClient t = ((j.ofClient t).1, []) := by
  rw [ofClient, pending_clear_self]
  rfl

omit [DecidableEq R] in
theorem ofClient_add (j : Journal T κ σ) (t : T) (cs : List (Change κ σ)) :
    (j.add t cs).ofClient t = ((j.ofClient t).1, (j.ofClient t).2 ++ cs) := by
  rw [ofClient, pending_add_self]
  rfl

omit [DecidableEq R] in
theorem ofClient_publish (j : Journal T κ σ) (t : T) :
    (j.publish t).ofClient t = ((j.ofClient t).1 ++ (j.ofClient t).2, []) := by
  have hown : ((j.pending t).map fun c => (t, c)).filter (fun e => e.1 = t) =
      (j.pending t).map fun c => (t, c) :=
    List.filter_eq_self.2 fun e he => by
      obtain ⟨c, -, rfl⟩ := List.mem_map.1 he
      exact decide_eq_true rfl
  have hmap : ((j.pending t).map fun c => (t, c)).map Prod.snd = j.pending t := by
    rw [List.map_map]
    exact List.map_id _
  rw [ofClient, pending_publish_self, publish, List.filter_append, List.map_append, hown, hmap]
  rfl

omit [DecidableEq R] in
theorem ofClient_publish_of_ne (j : Journal T κ σ) {u : T} (hu : u ≠ t) :
    (j.publish u).ofClient t = j.ofClient t := by
  have hothers : ((j.pending u).map fun c => (u, c)).filter (fun e => e.1 = t) = [] :=
    List.filter_eq_nil_iff.2 fun e he => by
      obtain ⟨c, -, rfl⟩ := List.mem_map.1 he
      exact fun h => hu (of_decide_eq_true h)
  rw [ofClient, pending_publish_of_ne _ _ (Ne.symm hu), publish, List.filter_append, hothers,
    List.append_nil]
  rfl

omit [DecidableEq R] in
/-- What others do is not in the journal of `t`. -/
theorem ofClient_event_of_ne (j : Journal T κ σ) {u : T} (hu : u ≠ t) :
    (j.event D changes (w, (u, fault))).ofClient t = j.ofClient t := by
  have hclear : (j.clear u).ofClient t = j.ofClient t := by
    rw [ofClient, pending_clear_of_ne _ _ (Ne.symm hu)]
    rfl
  rw [event]
  split
  · rfl
  next c next hclient =>
    cases c with
    | begin => exact hclear
    | close => exact hclear
    | query a => rfl
    | rollback =>
      rw [note]
      split_ifs
      · exact hclear
      · rfl
    | flush q =>
      rw [note]
      split
      · rfl
      · split
        · rfl
        · rw [ofClient, pending_add_of_ne _ _ _ (Ne.symm hu)]
          rfl
    | commit =>
      rw [note]
      split_ifs
      · exact j.ofClient_publish_of_ne hu
      · rfl

variable (changes) in
/-- What `t` does is in its journal as its transcript says. -/
theorem ofClient_event (j : Journal T κ σ) (h : turn D w (t, fault) = some w') :
    ∃ e, entry D (w, (t, fault)) = some e ∧ (j.event D changes (w, (t, fault))).ofClient t =
      settle (j.ofClient t) (e, made D changes (w, (t, fault))) := by
  obtain ⟨c, next, -, hclient, -, -⟩ := turn_cases h
  obtain ⟨r, hserve, hentry, -⟩ := entry_turn hclient h
  refine ⟨⟨c, r⟩, hentry, ?_⟩
  generalize w'.server = s' at hserve
  rw [event]
  simp only [hclient]
  cases c with
  | begin => exact j.ofClient_clear t
  | close => exact j.ofClient_clear t
  | query a => rfl
  | rollback =>
    cases fault with
    | some e =>
      cases hserve
      rfl
    | none =>
      cases hserve
      exact j.ofClient_clear t
  | flush q =>
    simp only [serve] at hserve
    rw [note]
    cases hx : w.server.txns.get? t with
    | none =>
      rw [hx] at hserve
      cases hserve
      rfl
    | some x =>
      rw [hx] at hserve
      dsimp only at hserve ⊢
      cases hrun : attempt fault (D.run q (view D.engine w.server x)) with
      | error e =>
        rw [hrun] at hserve
        cases hserve
        rfl
      | ok ws =>
        rw [hrun] at hserve
        dsimp only at hserve
        split_ifs at hserve
        cases hserve
        have hmade : made D changes (w, (t, fault)) = changes q (view D.engine w.server x) := by
          simp only [made, hclient, hx]
        rw [hmade]
        exact j.ofClient_add t _
  | commit =>
    simp only [serve] at hserve
    rw [note]
    cases hx : w.server.txns.get? t with
    | none =>
      rw [hx] at hserve
      cases hserve
      rw [Option.isSome_none, Bool.and_false]
      rfl
    | some x =>
      rw [hx] at hserve
      cases fault with
      | some e =>
        cases hserve
        rfl
      | none =>
        cases hserve
        exact j.ofClient_publish t

end Journal

/-- **The journal of a client is told by its transcript.** -/
theorem journal_of_client {db : Db} {client : T → Prog (Call A Q) (Call.Reply V Ex) α}
    {ls : List (T × Option Ex)}
    (hrun : Run.exec (turn D) ⟨⟨db, Table.empty⟩, client⟩ ls = some w) (t : T) :
    (journal D changes (Run.trace (turn D) ⟨⟨db, Table.empty⟩, client⟩ ls)).ofClient t =
      settled (remarks D changes t (Run.trace (turn D) ⟨⟨db, Table.empty⟩, client⟩ ls)) := by
  refine Run.trace_inv (J := fun tr _ => (journal D changes tr).ofClient t =
    settled (remarks D changes t tr)) (fun tr w l w' h hturn => ?_) rfl hrun
  obtain ⟨u, fault⟩ := l
  rw [journal, List.foldl_append]
  by_cases hu : u = t
  · subst hu
    obtain ⟨e, hentry, hevent⟩ := (journal D changes tr).ofClient_event changes hturn
    rw [remarks, List.filter_append, List.filterMap_append, List.filter_cons_of_pos (by simp),
      List.filter_nil, settled, List.foldl_append]
    simp only [List.filterMap_cons, List.filterMap_nil, hentry, Option.map_some]
    exact hevent.trans (congrArg (settle · _) h)
  · rw [remarks, List.filter_append, List.filter_cons_of_neg (by simp [hu]), List.filter_nil,
      List.append_nil]
    exact ((journal D changes tr).ofClient_event_of_ne hu).trans h

/-! ### A call, placed in the run -/

variable (changes) in
theorem map_fst_remarks (t : T) (tr : List (SessionEvent T Db W A Q V Ex α)) :
    (remarks D changes t tr).map Prod.fst = transcript D t tr := by
  rw [remarks, List.map_filterMap, transcript]
  refine congrArg (List.filterMap · _) (funext fun l => ?_)
  rw [Option.map_map]
  exact congrFun Option.map_id _

theorem remarks_split {rs rest : List (Entry A Q V Ex × List (Change κ σ))}
    {m : Entry A Q V Ex × List (Change κ σ)} (h : remarks D changes t tr = rs ++ m :: rest) :
    ∃ pre l post, tr = pre ++ l :: post ∧ remarks D changes t pre = rs ∧ l.2.1 = t ∧
      entry D l = some m.1 ∧ m.2 = made D changes l := by
  simp only [remarks, List.filterMap_filter] at h ⊢
  obtain ⟨pre, suf, rfl, hpre, hsuf⟩ := List.filterMap_eq_append_iff.1 h
  obtain ⟨skipped, l, post, rfl, hskipped, hl, -⟩ := List.filterMap_eq_cons_iff.1 hsuf
  refine ⟨pre ++ skipped, l, post, by rw [List.append_assoc], ?_, ?_⟩
  · rw [List.filterMap_append, hpre, List.filterMap_eq_nil_iff.2 hskipped, List.append_nil]
  · split_ifs at hl with hby
    obtain ⟨e, he, rfl⟩ := Option.map_eq_some_iff.1 hl
    exact ⟨of_decide_eq_true hby, he, rfl⟩

section placed
variable {db : Db} {client : T → Prog (Call A Q) (Call.Reply V Ex) α} {ls : List (T × Option Ex)}
  (hrun : Run.exec (turn D) ⟨⟨db, Table.empty⟩, client⟩ ls = some w)
include hrun

/-- The run up to a call of `t`. -/
theorem placed {rs rest : List (Entry A Q V Ex × List (Change κ σ))}
    {m : Entry A Q V Ex × List (Change κ σ)} (h : remarks D changes t
      (Run.trace (turn D) ⟨⟨db, Table.empty⟩, client⟩ ls) = rs ++ m :: rest) :
    ∃ ls₁ w₁ fault w₂ post, Run.exec (turn D) ⟨⟨db, Table.empty⟩, client⟩ ls₁ = some w₁ ∧
      remarks D changes t (Run.trace (turn D) ⟨⟨db, Table.empty⟩, client⟩ ls₁) = rs ∧
      turn D w₁ (t, fault) = some w₂ ∧ entry D (w₁, (t, fault)) = some m.1 ∧
      m.2 = made D changes (w₁, (t, fault)) ∧
      Run.trace (turn D) ⟨⟨db, Table.empty⟩, client⟩ ls =
        Run.trace (turn D) ⟨⟨db, Table.empty⟩, client⟩ ls₁ ++ (w₁, (t, fault)) :: post := by
  obtain ⟨pre, ⟨w₁, ⟨_, fault⟩⟩, post, htrace, hpre, rfl, hentry, hmade⟩ := remarks_split h
  obtain ⟨hrun₁, htrace₁, w₂, hturn, -⟩ := Run.trace_split hrun htrace
  refine ⟨pre.map Prod.snd, w₁, fault, w₂, post, hrun₁, ?_, hturn, hentry, hmade, ?_⟩
  · rw [htrace₁]
    exact hpre
  · rw [htrace₁]
    exact htrace

variable (changes) in
omit hrun in
theorem made_of_entry {q : Q} {fault : Option Ex}
    (h : entry D (w, (t, fault)) = some ⟨.flush q, .ok ()⟩) :
    ∃ x, w.server.txns.get? t = some x ∧
      made D changes (w, (t, fault)) = changes q (view D.engine w.server x) := by
  simp only [entry] at h
  split at h
  · cases h
  next c next hclient =>
    obtain ⟨⟨s', r⟩, hserve, heq⟩ := Option.map_eq_some_iff.1 h
    cases heq
    simp only [serve] at hserve
    split at hserve
    · cases hserve
    next x hx => exact ⟨x, hx, by simp only [made, hclient, hx]⟩

omit hrun in
theorem look_of_entry {a : A} {v : V} {fault : Option Ex}
    (h : entry D (w, (t, fault)) = some ⟨.query a, .ok v⟩) :
    ∃ x, w.server.txns.get? t = some x ∧ v = D.look a (view D.engine w.server x) := by
  simp only [entry] at h
  split at h
  · cases h
  next c next hclient =>
    obtain ⟨⟨s', r⟩, hserve, heq⟩ := Option.map_eq_some_iff.1 h
    cases heq
    exact (serve_query hserve).2.2

/-- What a client was told last is still right, when it is about a row that it has written. -/
theorem last_answer {a : A} {v : V} {row : R} (hreads : Reads D.engine (D.look a) row)
    {h : List (Entry A Q V Ex)} (htr : transcript D t
      (Run.trace (turn D) ⟨⟨db, Table.empty⟩, client⟩ ls) = h ++ [⟨.query a, .ok v⟩]) {x : Txn T W}
    (hx : w.server.txns.get? t = some x) (hwritten : ∃ c ∈ x.writes, D.engine.row c = row) :
    D.look a (view D.engine w.server x) = v := by
  refine Run.trace_inv (J := fun tr w => ∀ h x, transcript D t tr = h ++ [⟨.query a, .ok v⟩] →
    w.server.txns.get? t = some x → (∃ c ∈ x.writes, D.engine.row c = row) →
    D.look a (view D.engine w.server x) = v) (fun tr w l w' ih hturn h x htr hx hwritten => ?_)
    (fun h x htr => ?_) hrun h x htr hx hwritten
  · obtain ⟨u, fault⟩ := l
    obtain ⟨c, next, r, hclient, hserved, -⟩ := turn_cases hturn
    by_cases hu : u = t
    · subst hu
      obtain ⟨r, hserve, hentry, -⟩ := entry_turn hclient hturn
      rw [transcript_concat_self hentry] at htr
      cases List.singleton_inj.1 (List.append_inj' htr rfl).2
      obtain ⟨hsame, -, y, hy, rfl⟩ := serve_query hserve
      rw [hsame] at hx ⊢
      rw [Option.some.inj (hx.symm.trans hy)]
    · rw [transcript_concat_of_ne hu] at htr
      rw [hserved.get?_of_ne (Ne.symm hu)] at hx
      exact (hreads.of_written hwritten).trans (ih h x htr hx hwritten)
  · cases (List.append_eq_nil_iff.1 htr.symm).2

end placed

/-! ### Reading a transcript -/

/-- The changes of a call that was served. -/
def flushed : Entry A Q V Ex × List (Change κ σ) → List (Change κ σ)
  | (⟨.flush _, .ok _⟩, cs) => cs
  | _ => []

theorem flushed_eq_nil_or (m : Entry A Q V Ex × List (Change κ σ)) :
    flushed m = [] ∨ ∃ q, m.1 = ⟨.flush q, .ok ()⟩ ∧ flushed m = m.2 := by
  obtain ⟨⟨c, r⟩, cs⟩ := m
  cases c with
  | flush q =>
    cases r with
    | error e => exact .inl rfl
    | ok => exact .inr ⟨q, rfl, rfl⟩
  | begin | query | commit | rollback | close => exact .inl rfl

/-- No change is published twice. -/
theorem settled_sublist (rs : List (Entry A Q V Ex × List (Change κ σ))) :
    ((settled rs).1 ++ (settled rs).2).Sublist (rs.flatMap flushed) := by
  induction rs using List.reverseRecOn with
  | nil => exact .slnil
  | append_singleton rs m ih =>
    rw [settled, List.foldl_append, List.flatMap_append, List.flatMap_singleton]
    change ((settle (settled rs) m).1 ++ (settle (settled rs) m).2).Sublist _
    have hkeep : ((settled rs).1 ++ (settled rs).2).Sublist (rs.flatMap flushed ++ flushed m) :=
      ih.trans (List.sublist_append_left ..)
    have hdrop : ((settled rs).1 ++ []).Sublist (rs.flatMap flushed ++ flushed m) := by
      rw [List.append_nil]
      exact (List.sublist_append_left ..).trans hkeep
    obtain ⟨⟨c, r⟩, cs⟩ := m
    cases c with
    | begin => exact hdrop
    | close => exact hdrop
    | query a => exact hkeep
    | flush q =>
      cases r with
      | error e => exact hkeep
      | ok =>
        show ((settled rs).1 ++ ((settled rs).2 ++ cs)).Sublist _
        rw [← List.append_assoc]
        exact ih.append (List.Sublist.refl cs)
    | commit =>
      cases r with
      | error e => exact hkeep
      | ok =>
        show (((settled rs).1 ++ (settled rs).2) ++ []).Sublist _
        rw [List.append_nil]
        exact hkeep
    | rollback =>
      cases r with
      | error e => exact hkeep
      | ok => exact hdrop

end

end ReadCommitted
