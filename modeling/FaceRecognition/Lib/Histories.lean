import FaceRecognition.Lib.Requests

/-!
# The place of a request in the journal

The published changes are the history of the database. A request that has committed stands in it
where its commit stands among the others, and what it was told of a row that it has written is what
the history says up to there (`published_at_commit`, `last_answer`). Until it has made a change of
its own, a request sees what is committed (`sees_committed`). `SeenAt` is what this comes to: the
answer of a request is the one that it would have had alone, at a point of the history between its
first call and its last one.
-/

namespace ReadCommitted

open Relational UnitOfWork Client

variable {T Db W R A Q V Ex κ σ α β : Type} [DecidableEq T] [DecidableEq R]
  {D : Dbms Db W R A Q V Ex} {look : Db → κ → σ} {lock : κ → R}
  {changes : Q → Db → List (Change κ σ)} {t : T}

/-! ### The history grows -/

variable (D changes) in
omit [DecidableEq R] in
theorem Journal.published_event (j : Journal T κ σ) (l : SessionEvent T Db W A Q V Ex α) :
    ∃ later, (j.event D changes l).published = j.published ++ later := by
  have hsame : ∃ later, j.published = j.published ++ later := ⟨[], (List.append_nil _).symm⟩
  rw [event]
  split
  · exact hsame
  next c next hclient =>
    cases c with
    | begin => exact hsame
    | close => exact hsame
    | query a => exact hsame
    | rollback =>
      rw [note]
      split_ifs
      · exact hsame
      · exact hsame
    | flush q =>
      rw [note]
      split
      · exact hsame
      · split
        · exact hsame
        · exact hsame
    | commit =>
      rw [note]
      split_ifs
      · exact ⟨_, rfl⟩
      · exact hsame

variable (D changes) in
omit [DecidableEq R] in
theorem published_append (tr more : List (SessionEvent T Db W A Q V Ex α)) :
    ∃ later, (journal D changes (tr ++ more)).published =
      (journal D changes tr).published ++ later := by
  induction more generalizing tr with
  | nil => exact ⟨[], by simp⟩
  | cons l more ih =>
    obtain ⟨later, hlater⟩ := ih (tr ++ [l])
    obtain ⟨own, hown⟩ := (journal D changes tr).published_event D changes l
    refine ⟨own ++ later, ?_⟩
    rw [List.append_cons, hlater, journal, List.foldl_append, ← List.append_assoc]
    exact congrArg (· ++ later) hown

omit [DecidableEq R] in
/-- The changes of a client, in the history of all. -/
theorem Journal.filter_published (j : Journal T κ σ) (t : T) :
    j.published.filter (fun e => e.1 = t) = (j.ofClient t).1.map fun c => (t, c) := by
  rw [ofClient, List.map_map]
  refine (List.map_id _).symm.trans (List.map_congr_left fun e he => ?_)
  obtain rfl : e.1 = t := of_decide_eq_true (List.mem_filter.1 he).2
  rfl

/-- At a call of `t`, `a` is what the history says of `k`, with the changes that `t` has
published. -/
def SeenAt [DecidableEq κ] (D : Dbms Db W R A Q V Ex) (changes : Q → Db → List (Change κ σ))
    (f : κ → σ) (tr : List (SessionEvent T Db W A Q V Ex α)) (t : T) (k : κ) (a : σ) : Prop :=
  ∃ pre l post own later, tr = pre ++ l :: post ∧ l.2.1 = t ∧
    (journal D changes tr).published = (journal D changes pre).published ++ own ++ later ∧
    own = (journal D changes tr).published.filter (fun e => e.1 = t) ∧
    a = play f (((journal D changes pre).published ++ own).map Prod.snd) k

/-! ### One request -/

section run
variable [DecidableEq κ] {db : Db} {client : T → Prog (Call A Q) (Call.Reply V Ex) α}
  {ls : List (T × Option Ex)} {w : World T Db W A Q V Ex α}
  (hD : Rowwise D look lock changes)
  (hrun : Run.exec (turn D) ⟨⟨db, Table.empty⟩, client⟩ ls = some w)
include hrun

omit [DecidableEq κ] in
theorem pending_sublist : ((journal D changes (Run.trace (turn D) ⟨⟨db, Table.empty⟩, client⟩
    ls)).pending t).Sublist ((remarks D changes t
      (Run.trace (turn D) ⟨⟨db, Table.empty⟩, client⟩ ls)).flatMap flushed) := by
  show ((journal D changes _).ofClient t).2.Sublist _
  rw [journal_of_client hrun t]
  exact (List.sublist_append_right ..).trans (settled_sublist _)

include hD

/-- A request that has made no change sees what is committed. -/
theorem sees_committed
    (hno : (remarks D changes t (Run.trace (turn D) ⟨⟨db, Table.empty⟩, client⟩ ls)).flatMap
      flushed = []) {x : Txn T W} (hx : w.server.txns.get? t = some x) :
    look (view D.engine w.server x) = play (look db) ((journal D changes
      (Run.trace (turn D) ⟨⟨db, Table.empty⟩, client⟩ ls)).published.map Prod.snd) := by
  have hserial := replay hD hrun
  obtain ⟨hmem, rfl⟩ := Table.get?_eq_some.1 hx
  have hpending : (journal D changes (Run.trace (turn D) ⟨⟨db, Table.empty⟩, client⟩
      ls)).pending (PrimaryKey.pk x) = [] :=
    List.sublist_nil.1 (hno ▸ pending_sublist hrun)
  rw [hserial.view x hmem, show x.id = PrimaryKey.pk x from rfl, hpending, hserial.committed]
  rfl

/-- A commit: the history is the one before it, with the changes of the request. -/
theorem published_at_commit {rs rest : List (Entry A Q V Ex × List (Change κ σ))}
    {m : Entry A Q V Ex × List (Change κ σ)}
    (h : remarks D changes t (Run.trace (turn D) ⟨⟨db, Table.empty⟩, client⟩ ls) = rs ++ m :: rest)
    (hm : m.1 = ⟨.commit, .ok ()⟩) :
    ∃ ls₁ w₁ x own post later, Run.exec (turn D) ⟨⟨db, Table.empty⟩, client⟩ ls₁ = some w₁ ∧
      remarks D changes t (Run.trace (turn D) ⟨⟨db, Table.empty⟩, client⟩ ls₁) = rs ∧
      Run.trace (turn D) ⟨⟨db, Table.empty⟩, client⟩ ls =
        Run.trace (turn D) ⟨⟨db, Table.empty⟩, client⟩ ls₁ ++ (w₁, (t, none)) :: post ∧
      w₁.server.txns.get? t = some x ∧
      own = (journal D changes
        (Run.trace (turn D) ⟨⟨db, Table.empty⟩, client⟩ ls₁)).pending t ∧
      (journal D changes (Run.trace (turn D) ⟨⟨db, Table.empty⟩, client⟩ ls)).published =
        (journal D changes (Run.trace (turn D) ⟨⟨db, Table.empty⟩, client⟩ ls₁)).published ++
          own.map (fun c => (t, c)) ++ later ∧
      look (view D.engine w₁.server x) = play (look db) (((journal D changes
        (Run.trace (turn D) ⟨⟨db, Table.empty⟩, client⟩ ls₁)).published ++
          own.map fun c => (t, c)).map Prod.snd) := by
  obtain ⟨ls₁, w₁, fault, w₂, post, hrun₁, hrs₁, hturn, hentry, -, htrace⟩ := placed hrun h
  obtain ⟨c, next, -, hclient, -, -⟩ := turn_cases hturn
  obtain ⟨r, hserve, hentry', -⟩ := entry_turn hclient hturn
  rw [hm] at hentry
  cases Option.some.inj (hentry'.symm.trans hentry)
  obtain ⟨hfault, x, hx⟩ : fault = none ∧ ∃ x, w₁.server.txns.get? t = some x := by
    generalize w₂.server = s₂ at hserve
    simp only [serve] at hserve
    split at hserve
    · cases hserve
    next x hx =>
      cases fault with
      | some e => cases hserve
      | none => exact ⟨rfl, x, hx⟩
  subst hfault
  obtain ⟨hmem, hid⟩ := Table.get?_eq_some.1 hx
  have hserial := replay hD hrun₁
  obtain ⟨later, hlater⟩ := published_append D changes
    (Run.trace (turn D) ⟨⟨db, Table.empty⟩, client⟩ ls₁ ++ [(w₁, (t, none))]) post
  refine ⟨ls₁, w₁, x, _, post, later, hrun₁, hrs₁, htrace, hx, rfl, ?_, ?_⟩
  · rw [htrace, List.append_cons, hlater]
    refine congrArg (· ++ later) ?_
    rw [journal, List.foldl_append]
    show (Journal.event D changes (journal D changes _) (w₁, (t, none))).published = _
    rw [Journal.event]
    simp only [hclient, Journal.note, hx, Option.isNone_none, Option.isSome_some, Bool.and_self,
      if_true]
    rfl
  · obtain rfl : x.id = t := hid
    rw [hserial.view x hmem, hserial.committed, List.map_append, play_append, List.map_map]
    exact congrArg (play _) (List.map_id _).symm

end run

/-! ### Transcripts of requests -/

/-- An open transaction, in which only queries and statements were executed. -/
def Handling (h : List (Entry A Q V Ex)) : Prop :=
  ∃ rest, h = ⟨.begin, .ok ()⟩ :: rest ∧ ∀ e ∈ rest, ¬ e.1.Controls

omit [DecidableEq T] [DecidableEq R] in
theorem Handling.record {h : List (Entry A Q V Ex)} (hh : Handling h) {c : Call A Q}
    (hc : ¬ c.Controls) (r : c.Reply V Ex) : Handling (record h c r) := by
  obtain ⟨rest, rfl, hrest⟩ := hh
  refine ⟨rest ++ [⟨c, r⟩], rfl, fun e he => ?_⟩
  rcases List.mem_append.1 he with he | he
  · exact hrest e he
  · cases List.mem_singleton.1 he
    exact hc

section settled
variable {rs : List (Entry A Q V Ex × List (Change κ σ))}

omit [DecidableEq T] [DecidableEq R] in
theorem settled_handling (h : Handling (rs.map Prod.fst)) :
    settled rs = ([], rs.flatMap flushed) := by
  obtain ⟨rest, heq, hrest⟩ := h
  obtain ⟨m, rs, rfl, hm, rfl⟩ := List.map_eq_cons_iff.1 heq
  have hplain : ∀ (rs : List (Entry A Q V Ex × List (Change κ σ))) (o : List (Change κ σ)),
      (∀ e ∈ rs.map Prod.fst, ¬ e.1.Controls) →
      rs.foldl settle ([], o) = ([], o ++ rs.flatMap flushed) := by
    intro rs
    induction rs with
    | nil =>
      intro o _
      simp
    | cons m rs ih =>
      intro o hrs
      have hone : settle ([], o) m = ([], o ++ flushed m) := by
        have hm := hrs m.1 List.mem_cons_self
        obtain ⟨⟨c, r⟩, cs⟩ := m
        cases c with
        | query a => exact congrArg (Prod.mk []) (List.append_nil o).symm
        | flush q =>
          cases r with
          | error e => exact congrArg (Prod.mk []) (List.append_nil o).symm
          | ok => rfl
        | begin | commit | rollback | close => exact absurd trivial hm
      rw [List.foldl_cons, hone, ih _ fun e he => hrs e (List.mem_cons_of_mem _ he),
        List.flatMap_cons, List.append_assoc]
  obtain ⟨⟨c, r⟩, cs⟩ := m
  cases hm
  rw [settled, List.foldl_cons]
  exact hplain rs [] hrest

omit [DecidableEq T] [DecidableEq R] in
theorem settled_committed {a b : Entry A Q V Ex × List (Change κ σ)}
    (hcommit : a.1 = ⟨.commit, .ok ()⟩) {r : Except Ex Unit} (hclose : b.1 = ⟨.close, r⟩) :
    (settled (rs ++ [a, b])).1 = (settled rs).1 ++ (settled rs).2 := by
  obtain ⟨_, cs⟩ := a
  obtain ⟨_, ds⟩ := b
  cases hcommit
  cases hclose
  rw [settled, List.foldl_append]
  rfl

omit [DecidableEq T] [DecidableEq R] in
/-- Without a commit nothing is published. -/
theorem settled_uncommitted (h : ⟨.commit, .ok ()⟩ ∉ rs.map Prod.fst) : (settled rs).1 = [] := by
  induction rs using List.reverseRecOn with
  | nil => rfl
  | append_singleton rs m ih =>
    rw [List.map_append, List.mem_append] at h
    have hrs := ih fun hmem => h (.inl hmem)
    have hm : m.1 ≠ ⟨.commit, .ok ()⟩ := fun he => h (.inr (by simp [he]))
    rw [settled, List.foldl_append]
    change (settle (settled rs) m).1 = []
    obtain ⟨⟨c, r⟩, cs⟩ := m
    cases c with
    | begin => exact hrs
    | close => exact hrs
    | query a => exact hrs
    | rollback => cases r <;> exact hrs
    | flush q => cases r <;> exact hrs
    | commit =>
      cases r with
      | error e => exact hrs
      | ok => exact absurd rfl hm

/-- All that a request has said that has returned, when `rs` is what its handler has said. -/
structure Returned (all rs : List (Entry A Q V Ex × List (Change κ σ))) : Prop where
  handling : Handling (rs.map Prod.fst)
  ends : ∃ cs cs', all = rs ++ [(⟨.commit, .ok ()⟩, cs), (⟨.close, .ok ()⟩, cs')]

namespace Returned
variable {all : List (Entry A Q V Ex × List (Change κ σ))}

omit [DecidableEq T] [DecidableEq R] in
theorem of_calls {h : List (Entry A Q V Ex)} (hh : Handling h)
    (hcalls : all.map Prod.fst = h ++ [⟨.commit, .ok ()⟩, ⟨.close, .ok ()⟩]) :
    ∃ rs, rs.map Prod.fst = h ∧ Returned all rs := by
  obtain ⟨rs, ms, rfl, rfl, hms⟩ := List.map_eq_append_iff.1 hcalls
  obtain ⟨⟨_, cs⟩, ms, rfl, rfl, hclose⟩ := List.map_eq_cons_iff.1 hms
  obtain ⟨⟨_, cs'⟩, ms, rfl, rfl, hnil⟩ := List.map_eq_cons_iff.1 hclose
  obtain rfl := List.map_eq_nil_iff.1 hnil
  exact ⟨rs, rfl, hh, cs, cs', rfl⟩

omit [DecidableEq T] [DecidableEq R] in
/-- It has published what it has made. -/
theorem settled (h : Returned all rs) : (ReadCommitted.settled all).1 = rs.flatMap flushed := by
  obtain ⟨hhandling, cs, cs', rfl⟩ := h
  rw [settled_committed rfl rfl, settled_handling hhandling]
  rfl

end Returned

omit [DecidableEq T] [DecidableEq R] in
/-- One that executes at most one statement has the changes of this statement. -/
theorem flatMap_flushed (hone : ∀ pre e suf, rs.map Prod.fst = pre ++ e :: suf → ∀ q,
      e.1 = .flush q → ∀ e' ∈ pre, ∀ q', e'.1 ≠ .flush q') {q : Q}
    (h : ⟨.flush q, .ok ()⟩ ∈ rs.map Prod.fst) :
    ∃ pre m suf, rs = pre ++ m :: suf ∧ m.1 = ⟨.flush q, .ok ()⟩ ∧ pre.flatMap flushed = [] ∧
      rs.flatMap flushed = m.2 := by
  obtain ⟨m, hm, heq⟩ := List.mem_map.1 h
  obtain ⟨pre, suf, rfl⟩ := List.append_of_mem hm
  have hempty : ∀ ms : List (Entry A Q V Ex × List (Change κ σ)),
      (∀ m' ∈ ms, ∀ q', m'.1.1 ≠ .flush q') → ms.flatMap flushed = [] := by
    intro ms hms
    refine List.flatMap_eq_nil_iff.2 fun m' hm' => ?_
    rcases flushed_eq_nil_or m' with hnil | ⟨q', hq', -⟩
    · exact hnil
    · exact absurd (congrArg Sigma.fst hq') (hms m' hm' q')
  have hbefore := hempty pre fun m' hm' q' => by
    refine hone (pre.map Prod.fst) m.1 (suf.map Prod.fst) (by simp) q (by rw [heq]) m'.1 ?_ q'
    exact List.mem_map_of_mem hm'
  have hafter := hempty suf fun m' hm' q' hq' => by
    obtain ⟨pre', suf', rfl⟩ := List.append_of_mem hm'
    exact hone (pre.map Prod.fst ++ m.1 :: pre'.map Prod.fst) m'.1 (suf'.map Prod.fst) (by simp) q'
      hq' m.1 (by simp) q (by rw [heq])
  have hm : flushed m = m.2 := by
    obtain ⟨_, cs⟩ := m
    cases heq
    rfl
  refine ⟨pre, m, suf, rfl, heq, hbefore, ?_⟩
  rw [List.flatMap_append, List.flatMap_cons, hbefore, hafter, hm]
  simp

omit [DecidableEq T] [DecidableEq R] in
theorem flatMap_flushed_nil (h : ∀ q, ⟨.flush q, .ok ()⟩ ∉ rs.map Prod.fst) :
    rs.flatMap flushed = [] := by
  refine List.flatMap_eq_nil_iff.2 fun m hm => ?_
  rcases flushed_eq_nil_or m with hnil | ⟨q, hq, -⟩
  · exact hnil
  · exact absurd (hq ▸ List.mem_map_of_mem hm) (h q)

end settled

/-! ### The place of its answer -/

section answers
variable [DecidableEq κ] {db : Db} {client : T → Prog (Call A Q) (Call.Reply V Ex) α}
  {ls : List (T × Option Ex)} {w : World T Db W A Q V Ex α} (hD : Rowwise D look lock changes)
  (hrun : Run.exec (turn D) ⟨⟨db, Table.empty⟩, client⟩ ls = some w)
include hrun

omit [DecidableEq κ] in
theorem filter_history : (journal D changes
    (Run.trace (turn D) ⟨⟨db, Table.empty⟩, client⟩ ls)).published.filter (fun e => e.1 = t) =
      (settled (remarks D changes t
        (Run.trace (turn D) ⟨⟨db, Table.empty⟩, client⟩ ls))).1.map fun c => (t, c) := by
  rw [Journal.filter_published, journal_of_client hrun t]

include hD

/-- What a request that has returned saw when it committed. -/
theorem seenAt_commit {rs : List (Entry A Q V Ex × List (Change κ σ))} (h : Returned
      (remarks D changes t (Run.trace (turn D) ⟨⟨db, Table.empty⟩, client⟩ ls)) rs) :
    ∃ ls₁ w₁ x, Run.exec (turn D) ⟨⟨db, Table.empty⟩, client⟩ ls₁ = some w₁ ∧
      remarks D changes t (Run.trace (turn D) ⟨⟨db, Table.empty⟩, client⟩ ls₁) = rs ∧
      w₁.server.txns.get? t = some x ∧
      look (view D.engine w₁.server x) = play (look w₁.server.committed) (rs.flatMap flushed) ∧
      (∀ c ∈ rs.flatMap flushed, ∃ v ∈ x.writes, D.engine.row v = lock c.key) ∧
      ∀ k, SeenAt D changes (look db) (Run.trace (turn D) ⟨⟨db, Table.empty⟩, client⟩ ls) t k
        (look (view D.engine w₁.server x) k) := by
  obtain ⟨cs, cs', hends⟩ := h.ends
  obtain ⟨ls₁, w₁, x, own, post, later, hrun₁, hrs₁, htrace, hx, hown, hpublished, hlook⟩ :=
    published_at_commit hD hrun hends rfl
  have hpending : own = rs.flatMap flushed := by
    rw [hown]
    show ((journal D changes _).ofClient t).2 = _
    rw [journal_of_client hrun₁ t, hrs₁, settled_handling h.handling]
  have hserial := replay hD hrun₁
  obtain ⟨hmem, hid⟩ := Table.get?_eq_some.1 hx
  obtain rfl : x.id = t := hid
  refine ⟨ls₁, w₁, x, hrun₁, hrs₁, hx, ?_, ?_, fun k => ?_⟩
  · rw [hserial.view x hmem, ← hown, hpending]
  · rw [← hpending, hown]
    exact hserial.locked x hmem
  · refine ⟨_, _, post, _, later, htrace, rfl, hpublished, ?_, congrFun hlook k⟩
    rw [filter_history hrun, h.settled, hpending]

/-- What a request that publishes nothing was told, before its first change. -/
theorem seenAt_call {rs rest : List (Entry A Q V Ex × List (Change κ σ))}
    {m : Entry A Q V Ex × List (Change κ σ)}
    (h : remarks D changes t (Run.trace (turn D) ⟨⟨db, Table.empty⟩, client⟩ ls) = rs ++ m :: rest)
    (hno : rs.flatMap flushed = []) (hnone : (settled (rs ++ m :: rest)).1 = []) :
    ∃ (w₁ w₂ : World T Db W A Q V Ex α) (fault : Option Ex), turn D w₁ (t, fault) = some w₂ ∧
      entry D (w₁, (t, fault)) = some m.1 ∧ m.2 = made D changes (w₁, (t, fault)) ∧
      ∀ x, w₁.server.txns.get? t = some x → ∀ k, SeenAt D changes (look db)
        (Run.trace (turn D) ⟨⟨db, Table.empty⟩, client⟩ ls) t k
          (look (view D.engine w₁.server x) k) := by
  obtain ⟨ls₁, w₁, fault, w₂, post, hrun₁, hrs₁, hturn, hentry, hmade, htrace⟩ := placed hrun h
  refine ⟨w₁, w₂, fault, hturn, hentry, hmade, fun x hx k => ?_⟩
  obtain ⟨later, hlater⟩ := published_append D changes
    (Run.trace (turn D) ⟨⟨db, Table.empty⟩, client⟩ ls₁) ((w₁, (t, fault)) :: post)
  refine ⟨_, _, post, [], later, htrace, rfl, ?_, ?_, ?_⟩
  · rw [htrace, hlater, List.append_nil]
  · rw [filter_history hrun, h, hnone]
    rfl
  · rw [List.append_nil, sees_committed hD hrun₁ (hrs₁.symm ▸ hno) hx]

end answers

section concluded
variable {tells : List (Entry A Q V Ex) → Except Ex β → Prop} {h : List (Entry A Q V Ex)}

omit [DecidableEq T] [DecidableEq R] in
theorem Concluded.of_ok {a : β} (hc : Concluded tells h (.ok a)) :
    ∃ h', tells h' (.ok a) ∧ h = h' ++ [⟨.commit, .ok ()⟩, ⟨.close, .ok ()⟩] := by
  cases hc with
  | returned h' a htells => exact ⟨h', htells, rfl⟩

omit [DecidableEq T] [DecidableEq R] in
/-- A request that fails has not committed, unless it fails to close its session. -/
theorem Concluded.of_error (htells : ∀ h r, tells h r → Handling h) {e : Ex}
    (hc : Concluded tells h (.error e)) :
    ⟨.commit, .ok ()⟩ ∉ h ∨ ⟨.close, .error e⟩ ∈ h := by
  have hhandling : ∀ h' : List (Entry A Q V Ex), Handling h' → ⟨.commit, .ok ()⟩ ∉ h' := by
    rintro _ ⟨rest, rfl, hrest⟩ hmem
    rcases List.mem_cons.1 hmem with heq | hmem
    · cases heq
    · exact hrest _ hmem trivial
  cases hc with
  | unopened => exact .inl fun hmem => by cases List.mem_singleton.1 hmem
  | unclosed h' a e hok => exact .inr (by simp)
  | refused h' a e r r' hok =>
    refine .inl fun hmem => ?_
    rcases List.mem_append.1 hmem with hmem | hmem
    · exact hhandling h' (htells h' _ hok) hmem
    · simp at hmem
  | raised h' e r r' herror =>
    refine .inl fun hmem => ?_
    rcases List.mem_append.1 hmem with hmem | hmem
    · exact hhandling h' (htells h' _ herror) hmem
    · simp at hmem

end concluded

end ReadCommitted
