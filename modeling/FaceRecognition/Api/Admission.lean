import FaceRecognition.Api.KeyHistory
import FaceRecognition.Lib.Machine

/-!
# API keys let their holders in

`Tracks` ties the table and the buckets to what has been answered so far: the rows are the keys that
are out, in the order in which they were issued, and the bucket of a key holds the window of the
requests it has admitted. So a request is admitted iff its header is a key that is out and has
budget left, and requests with other headers change nothing for it (`api_keys_admit`).
-/

namespace FaceRecognition.Api

open Relational Db UnitOfWork RateLimit

/-! ### The table and the buckets -/

def bucketOf (w : Option Window) : Option Bucket := w.map fun w => ⟨w.1, w.2⟩

/-- What the past says about the table and the buckets, with the operations still to come. -/
structure Tracks (cfg : KeySettings) (past : List KeyEvent) (rest : List KeyOp) (w : KeyWorld) :
    Prop where
  fresh : Fresh cfg (past.map Prod.fst ++ rest)
  issues : ∀ e ∈ past, ∀ id raw, issued e = some (id, raw) → ∃ c name createdBy,
    e.1 = .create c name createdBy ∧ c.keyId = id ∧ apiKeyPrefix ++ c.token = raw
  rows : w.db.apiKeys.rows.map core = (out past).map fun k => (k.1, cfg.hashApiKey k.2, true)
  spends : ∀ id raw, (id, raw) ∈ out past → w.buckets (toString id) =
    bucketOf (lastWindow (parseRate cfg.externalRateLimit).2 past raw)
  unused : ∀ id, (∀ e ∈ past, ∀ raw, issued e ≠ some (id, raw)) → w.buckets (toString id) = none
  passes : ∀ e ∈ past, ∀ raw, passed raw e ≠ none → ∃ e' ∈ past, ∃ id, issued e' = some (id, raw)

theorem tracks_start {cfg : KeySettings} {w : KeyWorld} {ops : List KeyOp} (h : Fresh cfg ops)
    (hkeys : w.db.apiKeys = Table.empty) (hbuckets : w.buckets = fun _ => none) :
    Tracks cfg [] ops w where
  fresh := h
  issues := by simp
  rows := by
    rw [hkeys]
    rfl
  spends := by simp [out]
  unused := by simp [hbuckets]
  passes := by simp

section
variable {cfg : KeySettings} {past : List KeyEvent} {op : KeyOp} {rest : List KeyOp} {w : KeyWorld}

namespace Tracks

variable (h : Tracks cfg past rest w)
include h

/-- An issued key comes from a creation. -/
theorem creation {id : UUID} {raw : String} (hissued : ∃ e ∈ past, issued e = some (id, raw)) :
    ∃ c ∈ creations (past.map Prod.fst), c.keyId = id ∧ apiKeyPrefix ++ c.token = raw := by
  obtain ⟨e, he, hissued⟩ := hissued
  obtain ⟨c, name, createdBy, hop, hid, hraw⟩ := h.issues e he id raw hissued
  exact ⟨c, mem_creations.2 ⟨name, createdBy, List.mem_map.2 ⟨e, he, hop⟩⟩, hid, hraw⟩

theorem fresh_past : Fresh cfg (past.map Prod.fst) :=
  h.fresh.sublist (List.sublist_append_left _ _)

/-- Every key starts with `API_KEY_PREFIX`. -/
theorem not_holds_empty : ¬ Holds past "" := by
  intro hholds
  obtain ⟨id, hout⟩ := holds_iff.1 hholds
  obtain ⟨c, -, -, hraw⟩ := h.creation (issued_of_out hout)
  have hlist := congrArg String.toList hraw
  simp [apiKeyPrefix] at hlist

theorem id_unique {id id' : UUID} {raw : String}
    (hissued : ∃ e ∈ past, issued e = some (id, raw))
    (hissued' : ∃ e ∈ past, issued e = some (id', raw)) : id = id' := by
  obtain ⟨c, hc, rfl, hraw⟩ := h.creation hissued
  obtain ⟨c', hc', rfl, hraw'⟩ := h.creation hissued'
  have htoken : c.token = c'.token :=
    (String.append_right_inj apiKeyPrefix).1 (hraw.trans hraw'.symm)
  rw [List.inj_on_of_nodup_map h.fresh_past.tokens hc hc' htoken]

theorem raw_unique {id : UUID} {raw raw' : String}
    (hissued : ∃ e ∈ past, issued e = some (id, raw))
    (hissued' : ∃ e ∈ past, issued e = some (id, raw')) : raw = raw' := by
  obtain ⟨c, hc, hid, rfl⟩ := h.creation hissued
  obtain ⟨c', hc', hid', rfl⟩ := h.creation hissued'
  rw [List.inj_on_of_nodup_map h.fresh_past.ids hc hc' (hid.trans hid'.symm)]

theorem row_of_out {id : UUID} {raw : String} (hk : (id, raw) ∈ out past) :
    ∃ k ∈ w.db.apiKeys.rows, k.id = id ∧ k.keyHash = cfg.hashApiKey raw ∧ k.isActive = true := by
  have hmem : (id, cfg.hashApiKey raw, true) ∈ w.db.apiKeys.rows.map core := by
    rw [h.rows]
    exact List.mem_map.2 ⟨(id, raw), hk, rfl⟩
  obtain ⟨k, hrow, hcore⟩ := List.mem_map.1 hmem
  simp only [core, Prod.mk.injEq] at hcore
  exact ⟨k, hrow, hcore⟩

theorem out_of_row {k : ApiKey} (hk : k ∈ w.db.apiKeys.rows) :
    ∃ raw, (k.id, raw) ∈ out past ∧ k.keyHash = cfg.hashApiKey raw ∧ k.isActive = true := by
  have hmem : core k ∈ (out past).map fun k => (k.1, cfg.hashApiKey k.2, true) := by
    rw [← h.rows]
    exact List.mem_map_of_mem hk
  obtain ⟨⟨id, raw⟩, hout, hcore⟩ := List.mem_map.1 hmem
  simp only [core, Prod.mk.injEq] at hcore
  obtain ⟨rfl, hhash, hactive⟩ := hcore
  exact ⟨raw, hout, hhash.symm, hactive.symm⟩

/-- A header that hashes like a key that is out is this key. -/
theorem raw_of_hash {k : UUID × String} (hk : k ∈ out past) {op : KeyOp} (hop : op ∈ rest)
    {s : String} (hs : s ∈ op.strings) (hhash : cfg.hashApiKey k.2 = cfg.hashApiKey s) :
    k.2 = s := by
  obtain ⟨c, hc, -, hraw⟩ := h.creation (issued_of_out hk)
  obtain ⟨name, createdBy, hcreate⟩ := mem_creations.1 hc
  exact h.fresh.hashes ⟨_, List.mem_append_left _ hcreate, by simp [KeyOp.strings, hraw]⟩
    ⟨op, List.mem_append_right _ hop, hs⟩ hhash

end Tracks
end

/-! ### Admission -/

section
variable {cfg : KeySettings} {past : List KeyEvent} {rest : List KeyOp} {w : KeyWorld}

/-- The limiter of a key whose bucket holds the last window. -/
theorem allow_window {limit : ℤ} (hlimit : 1 ≤ limit) (window now : ℚ) {buckets : Buckets}
    {key : String} {win : Option Window} (hwin : buckets key = bucketOf win) :
    InProcessKeyRateLimiter.allow buckets key limit window now =
      if (spent window now win : ℤ) < limit then
        (true, Function.update buckets key (bucketOf (grant window win now)))
      else (false, buckets) := by
  rw [InProcessKeyRateLimiter.allow, hwin]
  cases win with
  | none =>
    have hpos : ((spent window now none : ℕ) : ℤ) < limit := hlimit
    rw [if_pos hpos]
    rfl
  | some win =>
    obtain ⟨start, n⟩ := win
    simp only [bucketOf, Option.map_some, spent, grant]
    by_cases hopen : window ≤ now - start
    · have hpos : (0 : ℤ) < limit := hlimit
      simp [hopen, hpos]
    · by_cases hbudget : (n : ℤ) < limit
      · simp [hopen, hbudget]
      · simp [hopen, hbudget]

/-- What `get_api_key` answers for a header, and the buckets then. -/
inductive Admits (cfg : KeySettings) (past : List KeyEvent) (buckets : Buckets) (now : ℚ)
    (key : Option String) : Except Exc ApiKey → Buckets → Prop
  | refused (h : ¬ ∃ raw, key = some raw ∧ Holds past raw) :
    Admits cfg past buckets now key
      (.error (if key.getD "" = "" then missingApiKey else invalidApiKey)) buckets
  | exceeded {raw : String} (hkey : key = some raw) (h : Holds past raw)
    (hbudget : ¬ InBudget cfg past raw now) :
    Admits cfg past buckets now key (.error (rateLimitExceeded cfg.externalRateLimit)) buckets
  | admitted {raw : String} {k : ApiKey} (hkey : key = some raw) (h : (k.id, raw) ∈ out past)
    (hbudget : InBudget cfg past raw now) :
    Admits cfg past buckets now key (.ok k) (Function.update buckets (toString k.id)
      (bucketOf (grant (parseRate cfg.externalRateLimit).2
        (lastWindow (parseRate cfg.externalRateLimit).2 past raw) now)))

/-- The lookup by hash finds nothing for a header that is no key that is out. -/
theorem Tracks.not_holds_of_find (h : Tracks cfg past rest w) {s : String}
    (hfind : w.db.apiKeys.rows.find? (fun k => k.keyHash = cfg.hashApiKey s ∧ k.isActive) = none) :
    ¬ Holds past s := by
  rintro hholds
  obtain ⟨id, hout⟩ := holds_iff.1 hholds
  obtain ⟨row, hrow, -, hhash, hactive⟩ := h.row_of_out hout
  have hnot := List.find?_eq_none.1 hfind row hrow
  simp [hhash, hactive] at hnot

theorem Tracks.out_of_find {op : KeyOp} (h : Tracks cfg past (op :: rest) w) {s : String}
    (hused : s ∈ op.strings) {k : ApiKey} (hfind :
      w.db.apiKeys.rows.find? (fun k => k.keyHash = cfg.hashApiKey s ∧ k.isActive) = some k) :
    (k.id, s) ∈ out past := by
  have hrow := List.find?_some hfind
  simp only [decide_eq_true_eq] at hrow
  obtain ⟨raw, hout, hhash, -⟩ := h.out_of_row (List.mem_of_find?_eq_some hfind)
  obtain rfl : raw = s :=
    h.raw_of_hash hout List.mem_cons_self hused (hhash.symm.trans hrow.1)
  exact hout

theorem Tracks.admits (hlimit : 1 ≤ (parseRate cfg.externalRateLimit).1) {c : KeyContext}
    {S : Services.RecognitionService} {image : Upload} {key : Option String}
    (h : Tracks cfg past (.external c S image key :: rest) w) :
    Admits cfg past w.buckets c.monotonic key
      (exec (getApiKey inProcessKeyRateLimiter cfg c.reliable key)
        (Session.begin w.db, w.buckets)).1
      (exec (getApiKey inProcessKeyRateLimiter cfg c.reliable key)
        (Session.begin w.db, w.buckets)).2.2 := by
  have hrefused : ¬ Holds past (key.getD "") → Admits cfg past w.buckets c.monotonic key
      (.error (if key.getD "" = "" then missingApiKey else invalidApiKey)) w.buckets := by
    refine fun hnot => .refused ?_
    rintro ⟨raw, rfl, hholds⟩
    exact hnot hholds
  rw [exec_getApiKey]
  split_ifs with hempty
  · have hnot : ¬ Holds past (key.getD "") := by
      rw [hempty]
      exact h.not_holds_empty
    rw [if_pos hempty] at hrefused
    exact hrefused hnot
  · cases hfind : w.db.apiKeys.rows.find? fun k => k.keyHash = cfg.hashApiKey (key.getD "") ∧
        k.isActive with
    | none =>
      rw [if_neg hempty] at hrefused
      exact hrefused (h.not_holds_of_find hfind)
    | some k =>
      obtain ⟨raw, rfl⟩ : ∃ raw, key = some raw := by
        cases key with
        | none => exact absurd rfl hempty
        | some raw => exact ⟨raw, rfl⟩
      have hout : (k.id, raw) ∈ out past :=
        h.out_of_find (by simpa [KeyOp.strings] using hempty) hfind
      have hallow := allow_window hlimit (parseRate cfg.externalRateLimit).2 c.monotonic
        (h.spends k.id raw hout)
      dsimp only [inProcessKeyRateLimiter]
      rw [hallow]
      by_cases hbudget : InBudget cfg past raw c.monotonic
      · have hspent := hbudget
        rw [InBudget] at hspent
        rw [if_pos hspent]
        exact .admitted rfl hout hbudget
      · have hspent := hbudget
        rw [InBudget] at hspent
        rw [if_neg hspent]
        exact .exceeded rfl (holds_iff.2 ⟨k.id, hout⟩) hbudget

theorem Admits.ok_iff {buckets after : Buckets} {now : ℚ} {key : Option String}
    {r : Except Exc ApiKey} (h : Admits cfg past buckets now key r after) :
    (∃ u, (r.map fun _ => ()) = .ok u) ↔
      ∃ raw, key = some raw ∧ Holds past raw ∧ InBudget cfg past raw now := by
  cases h with
  | refused hnot =>
    constructor
    · rintro ⟨u, hu⟩
      cases hu
    · rintro ⟨raw, hkey, hraw, -⟩
      exact absurd ⟨raw, hkey, hraw⟩ hnot
  | exceeded hkey _ hover =>
    subst hkey
    constructor
    · rintro ⟨u, hu⟩
      cases hu
    · rintro ⟨raw, hkey, -, hbudget⟩
      cases hkey
      exact absurd hbudget hover
  | admitted hkey hk hbudget =>
    exact ⟨fun _ => ⟨_, hkey, holds_iff.2 ⟨_, hk⟩, hbudget⟩, fun _ => ⟨(), rfl⟩⟩

end

/-! ### One operation -/

section
variable {cfg : KeySettings} {past : List KeyEvent} {op : KeyOp} {a : KeyAnswer}
  {rest : List KeyOp} {w w' : KeyWorld}

theorem Tracks.fresh_concat (h : Tracks cfg past (op :: rest) w) :
    Fresh cfg ((past ++ [(op, a)]).map Prod.fst ++ rest) := by
  simpa using h.fresh

theorem Tracks.issues_concat (h : Tracks cfg past (op :: rest) w)
    (hlast : ∀ id raw, issued (op, a) = some (id, raw) → ∃ c name createdBy,
      op = .create c name createdBy ∧ c.keyId = id ∧ apiKeyPrefix ++ c.token = raw) :
    ∀ e ∈ past ++ [(op, a)], ∀ id raw, issued e = some (id, raw) → ∃ c name createdBy,
      e.1 = .create c name createdBy ∧ c.keyId = id ∧ apiKeyPrefix ++ c.token = raw :=
  List.forall_mem_append.2 ⟨h.issues, List.forall_mem_singleton.2 hlast⟩

theorem Tracks.passes_concat (h : Tracks cfg past (op :: rest) w)
    (hlast : ∀ raw, Api.passed raw (op, a) ≠ none → ∃ e ∈ past, ∃ id, issued e = some (id, raw)) :
    ∀ e ∈ past ++ [(op, a)], ∀ raw, Api.passed raw e ≠ none →
      ∃ e' ∈ past ++ [(op, a)], ∃ id, issued e' = some (id, raw) := by
  intro e he raw hpass
  obtain ⟨e', he', hissue⟩ : ∃ e' ∈ past, ∃ id, issued e' = some (id, raw) := by
    rcases List.mem_append.1 he with he | he
    · exact h.passes e he raw hpass
    · rw [List.mem_singleton.1 he] at hpass
      exact hlast raw hpass
  exact ⟨e', List.mem_append_left _ he', hissue⟩

/-- An operation that fails changes nothing that matters. -/
theorem Tracks.quiet (h : Tracks cfg past (op :: rest) w) (hissued : issued (op, a) = none)
    (hrevoked : revoked (op, a) = none) (hpassed : ∀ raw, passed raw (op, a) = none)
    (hrows : w'.db.apiKeys.rows.map core = w.db.apiKeys.rows.map core)
    (hbuckets : w'.buckets = w.buckets) : Tracks cfg (past ++ [(op, a)]) rest w' := by
  have hout : out (past ++ [(op, a)]) = out past := by
    rw [out_concat, hissued, hrevoked]
    simp
  refine ⟨h.fresh_concat, h.issues_concat fun id raw hid => ?_, ?_, fun id raw hk => ?_,
    fun id hid => ?_, h.passes_concat fun raw hpass => absurd (hpassed raw) hpass⟩
  · rw [hissued] at hid
    cases hid
  · rw [hrows, hout]
    exact h.rows
  · rw [hbuckets, lastWindow_concat, hpassed]
    exact h.spends id raw (hout ▸ hk)
  · rw [hbuckets]
    exact h.unused id fun e he => hid e (List.mem_append_left _ he)

theorem Tracks.created {c : KeyContext} {name : String} {createdBy : Option String}
    {r : ApiKeyCreated} {db : FullDatabase} (h : Tracks cfg past (.create c name createdBy :: rest) w)
    (hinsert : insertApiKey (ApiKeyService.newApiKey cfg c name createdBy) w.db = .ok db)
    (hid : r.id = c.keyId) (hraw : r.key = apiKeyPrefix ++ c.token) :
    Tracks cfg (past ++ [(.create c name createdBy, .created (.ok r))]) rest ⟨db, w.buckets⟩ := by
  have hnew : ∀ id raw, (∃ e ∈ past, issued e = some (id, raw)) →
      id ≠ c.keyId ∧ raw ≠ apiKeyPrefix ++ c.token := by
    intro id raw hissued
    obtain ⟨c', hc', rfl, rfl⟩ := h.creation hissued
    have hids := h.fresh.ids
    have htokens := h.fresh.tokens
    rw [creations_create, List.map_append, List.map_cons, List.nodup_append] at hids htokens
    refine ⟨hids.2.2 _ (List.mem_map_of_mem hc') _ List.mem_cons_self, fun he => ?_⟩
    exact htokens.2.2 _ (List.mem_map_of_mem hc') _ List.mem_cons_self
      ((String.append_right_inj apiKeyPrefix).1 he)
  have hissued : issued (.create c name createdBy, .created (.ok r)) =
      some (c.keyId, apiKeyPrefix ++ c.token) := by
    rw [issued, hid, hraw]
  obtain ⟨hfree, -, rfl⟩ := insertApiKey_ok hinsert
  refine ⟨h.fresh_concat, h.issues_concat fun id raw hissue => ?_, ?_, fun id raw hk => ?_,
    fun id hissue => ?_, h.passes_concat fun raw hpass => absurd rfl hpass⟩
  · rw [hissued] at hissue
    obtain ⟨rfl, rfl⟩ := Prod.ext_iff.1 (Option.some.inj hissue)
    exact ⟨c, name, createdBy, rfl, rfl, rfl⟩
  · rw [Table.rows_put_of_new hfree, List.map_append, h.rows, out_concat, hissued]
    simp [revoked, core, ApiKeyService.newApiKey, generateApiKey]
  · rw [lastWindow_concat]
    rcases mem_out_concat.1 hk with ⟨hk, -⟩ | hk
    · exact h.spends id raw hk
    · -- a new key has no window yet, and no bucket
      rw [hissued] at hk
      obtain ⟨rfl, rfl⟩ := Prod.ext_iff.1 (Option.some.inj hk)
      have hnever : past.filterMap (passed (apiKeyPrefix ++ c.token)) = [] := by
        rw [List.filterMap_eq_nil_iff]
        intro e he
        by_contra hpass
        obtain ⟨e', he', id, hissue⟩ := h.passes e he _ hpass
        exact (hnew id _ ⟨e', he', hissue⟩).2 rfl
      rw [h.unused c.keyId fun e he raw hissue => (hnew _ raw ⟨e, he, hissue⟩).1 rfl]
      simp [passed, lastWindow, hnever, bucketOf]
  · exact h.unused id fun e he => hissue e (List.mem_append_left _ he)

theorem Tracks.revoked {c : KeyContext} {keyId : UUID}
    (h : Tracks cfg past (.revoke c keyId :: rest) w) :
    Tracks cfg (past ++ [(.revoke c keyId, .revoked (.ok ()))]) rest
      ⟨{ w.db with apiKeys := w.db.apiKeys.erase keyId }, w.buckets⟩ := by
  refine ⟨h.fresh_concat, h.issues_concat fun id raw hissue => ?_, ?_, fun id raw hk => ?_,
    fun id hissue => ?_, h.passes_concat fun raw hpass => absurd rfl hpass⟩
  · cases hissue
  · have hrows : (w.db.apiKeys.erase keyId).rows.map core =
        (w.db.apiKeys.rows.map core).filter fun k => k.1 ≠ keyId := by
      rw [List.filter_map]
      rfl
    rw [hrows, h.rows, out_concat, List.filter_map]
    simp [issued, Api.revoked, Function.comp_def, eq_comm]
  · rw [lastWindow_concat]
    obtain ⟨hk, -⟩ | hk := mem_out_concat.1 hk
    · exact h.spends id raw hk
    · cases hk
  · exact h.unused id fun e he => hissue e (List.mem_append_left _ he)

theorem Tracks.passed {c : KeyContext} {S : Services.RecognitionService} {image : Upload}
    {id : UUID} {raw : String} (h : Tracks cfg past (.external c S image (some raw) :: rest) w)
    (hk : (id, raw) ∈ out past) (hrows : w'.db.apiKeys.rows.map core = w.db.apiKeys.rows.map core)
    (hbuckets : w'.buckets = Function.update w.buckets (toString id)
      (bucketOf (grant (parseRate cfg.externalRateLimit).2
        (lastWindow (parseRate cfg.externalRateLimit).2 past raw) c.monotonic))) :
    Tracks cfg (past ++ [(.external c S image (some raw), .admitted (.ok ()))]) rest w' := by
  have hout : out (past ++ [(.external c S image (some raw), .admitted (.ok ()))]) = out past := by
    rw [out_concat]
    simp [issued, Api.revoked]
  have hissue := issued_of_out hk
  refine ⟨h.fresh_concat, h.issues_concat fun id' raw' hid => ?_, ?_, fun id' raw' hk' => ?_,
    fun id' hid => ?_, h.passes_concat fun raw' hpass => ?_⟩
  · cases hid
  · rw [hrows, hout]
    exact h.rows
  · rw [hout] at hk'
    rw [hbuckets, lastWindow_concat, Api.passed]
    by_cases he : raw = raw'
    · subst he
      rw [if_pos rfl, h.id_unique (issued_of_out hk') hissue, Function.update_self]
    · have hne : toString id' ≠ toString id := fun hid =>
        he (h.raw_unique hissue (toString_injective hid ▸ issued_of_out hk'))
      rw [if_neg he, Function.update_of_ne hne]
      exact h.spends id' raw' hk'
  · obtain ⟨e, he, hraw⟩ := hissue
    have hne : toString id' ≠ toString id := fun heq =>
      hid e (List.mem_append_left _ he) raw (toString_injective heq ▸ hraw)
    rw [hbuckets, Function.update_of_ne hne]
    exact h.unused id' fun e he => hid e (List.mem_append_left _ he)
  · rw [Api.passed] at hpass
    obtain rfl : raw = raw' := by
      by_contra hne
      exact hpass (if_neg hne)
    obtain ⟨e', he', hissue⟩ := hissue
    exact ⟨e', he', id, hissue⟩

theorem Tracks.step (hlimit : 1 ≤ (parseRate cfg.externalRateLimit).1)
    (h : Tracks cfg past (op :: rest) w) :
    Tracks cfg (past ++ [(op, (serveKeys cfg w op).2)]) rest (serveKeys cfg w op).1 := by
  cases op with
  | create c name createdBy =>
    rw [serveKeys_create]
    cases hinsert : insertApiKey (ApiKeyService.newApiKey cfg c name createdBy) w.db with
    | error e => exact h.quiet rfl rfl (fun _ => rfl) rfl rfl
    | ok db => exact h.created hinsert rfl rfl
  | revoke c keyId =>
    rw [serveKeys_revoke]
    cases hget : w.db.apiKeys.get? keyId with
    | none => exact h.quiet rfl rfl (fun _ => rfl) rfl rfl
    | some k =>
      obtain rfl := Table.pk_of_get? hget
      exact h.revoked
  | external c S image key =>
    have hadmits := h.admits hlimit
    have hrows : (serveKeys cfg w (.external c S image key)).1.db.apiKeys.rows.map core =
        w.db.apiKeys.rows.map core := core_external S image key
    rw [← buckets_external S image key] at hadmits
    rw [serveKeys_external]
    generalize (serveKeys cfg w (.external c S image key)).1 = w' at hadmits hrows ⊢
    generalize (exec (getApiKey inProcessKeyRateLimiter cfg c.reliable key)
      (Session.begin w.db, w.buckets)).1 = r at hadmits ⊢
    generalize hbuckets : w'.buckets = buckets at hadmits
    cases hadmits with
    | refused => exact h.quiet rfl rfl (fun raw => by cases key <;> rfl) hrows hbuckets
    | exceeded hkey => exact h.quiet rfl rfl (fun raw => by cases key <;> rfl) hrows hbuckets
    | admitted hkey hk =>
      subst hkey
      exact h.passed hk hrows hbuckets

end

/-! ### Two runs -/

section
variable {cfg : KeySettings} {past past' : List KeyEvent} {op : KeyOp} {rest rest' : List KeyOp}
  {w w' : KeyWorld}

theorem Admits.congr {buckets buckets' after after' : Buckets} {now : ℚ} {key : Option String}
    {r r' : Except Exc ApiKey} (h : Admits cfg past buckets now key r after)
    (h' : Admits cfg past' buckets' now key r' after')
    (hholds : ∀ raw, key = some raw → (Holds past raw ↔ Holds past' raw))
    (hbudget : ∀ raw, key = some raw → (InBudget cfg past raw now ↔ InBudget cfg past' raw now)) :
    (r.map fun _ => ()) = r'.map fun _ => () := by
  cases h with
  | refused hnot =>
    have hnot' : ¬ ∃ raw, key = some raw ∧ Holds past' raw := fun ⟨raw, hkey, hraw⟩ =>
      hnot ⟨raw, hkey, (hholds raw hkey).2 hraw⟩
    cases h' with
    | refused => rfl
    | exceeded hkey hraw => exact absurd ⟨_, hkey, hraw⟩ hnot'
    | admitted hkey hk => exact absurd ⟨_, hkey, holds_iff.2 ⟨_, hk⟩⟩ hnot'
  | exceeded hkey hraw hover =>
    subst hkey
    cases h' with
    | refused hnot => exact absurd ⟨_, rfl, (hholds _ rfl).1 hraw⟩ hnot
    | exceeded => rfl
    | admitted hkey _ hin =>
      cases hkey
      exact absurd ((hbudget _ rfl).2 hin) hover
  | admitted hkey hk hin =>
    subst hkey
    cases h' with
    | refused hnot => exact absurd ⟨_, rfl, (hholds _ rfl).1 (holds_iff.2 ⟨_, hk⟩)⟩ hnot
    | exceeded hkey _ hover =>
      cases hkey
      exact absurd ((hbudget _ rfl).1 hin) hover
    | admitted => rfl

/-- Creations and revocations ask the table for ids and hashes only. -/
theorem get?_isNone_congr (h : w.db.apiKeys.rows.map core = w'.db.apiKeys.rows.map core)
    (id : UUID) : (w.db.apiKeys.get? id).isNone = (w'.db.apiKeys.get? id).isNone := by
  have hcore : ∀ w : KeyWorld, (w.db.apiKeys.get? id).isNone =
      (w.db.apiKeys.rows.map core).all fun k => k.1 ≠ id := by
    intro w
    rw [Bool.eq_iff_iff, Option.isNone_iff_eq_none, Table.get?_eq_none, List.all_map,
      List.all_eq_true]
    exact forall₂_congr fun k _ => decide_eq_true_iff.symm
  rw [hcore, hcore, h]

theorem insertApiKey_congr (h : w.db.apiKeys.rows.map core = w'.db.apiKeys.rows.map core)
    (k : ApiKey) : ((insertApiKey k w.db).map fun _ => ()) =
      (insertApiKey k w'.db).map fun _ => () := by
  have hhashes : (w.db.apiKeys.rows.all fun q => q.keyHash ≠ k.keyHash) =
      w'.db.apiKeys.rows.all fun q => q.keyHash ≠ k.keyHash := by
    have hcore : ∀ w : KeyWorld, (w.db.apiKeys.rows.all fun q => q.keyHash ≠ k.keyHash) =
        (w.db.apiKeys.rows.map core).all fun q => q.2.1 ≠ k.keyHash := by
      intro w
      rw [List.all_map]
      rfl
    rw [hcore, hcore, h]
  simp only [insertApiKey, map_require_bind, get?_isNone_congr h, hhashes]
  rfl

/-- What creations and revocations are answered depends on what requests read. -/
theorem serveKeys_congr (h : w.db.apiKeys.rows.map core = w'.db.apiKeys.rows.map core) {op : KeyOp}
    (hop : ∀ c S image key, op ≠ .external c S image key) :
    (serveKeys cfg w op).2 = (serveKeys cfg w' op).2 := by
  cases op with
  | create c name createdBy =>
    have hinsert := insertApiKey_congr h (ApiKeyService.newApiKey cfg c name createdBy)
    rw [serveKeys_create, serveKeys_create]
    cases hresult : insertApiKey (ApiKeyService.newApiKey cfg c name createdBy) w.db <;>
      cases hresult' : insertApiKey (ApiKeyService.newApiKey cfg c name createdBy) w'.db <;>
      rw [hresult, hresult'] at hinsert <;> cases hinsert
    rfl
  | revoke c keyId =>
    have hget := get?_isNone_congr h keyId
    rw [serveKeys_revoke, serveKeys_revoke]
    cases hrow : w.db.apiKeys.get? keyId <;> cases hrow' : w'.db.apiKeys.get? keyId <;>
      rw [hrow, hrow'] at hget <;> cases hget
  | external c S image key => exact absurd rfl (hop c S image key)

theorem Tracks.out_concerning (h : Tracks cfg past rest w) (header : Option String) :
    out (concerning header past) = out past := by
  have hissues := h.issues
  clear h
  induction past using List.reverseRecOn with
  | nil => rfl
  | append_singleton past e ih =>
    have hpast := ih fun e he => hissues e (List.mem_append_left _ he)
    rw [concerning_concat]
    split_ifs with hkeep
    · rw [out_concat, out_concat, hpast]
    · obtain ⟨c, S, image, key, hop, -⟩ := external_of_not_concerns (Bool.eq_false_iff.2 hkeep)
      have hissued : issued e = none := by
        by_contra hne
        obtain ⟨⟨id, raw⟩, hissued⟩ := Option.ne_none_iff_exists'.1 hne
        obtain ⟨c', name, createdBy, hcreate, -⟩ := hissues e (by simp) id raw hissued
        rw [hop] at hcreate
        cases hcreate
      have hrevoked : Api.revoked e = none := by
        obtain ⟨op, a⟩ := e
        obtain rfl : op = _ := hop
        rfl
      rw [out_concat, hissued, hrevoked, hpast]
      simp

/-- Without requests with other headers, the same key is out and has the same window. -/
theorem Tracks.answer_eq (hlimit : 1 ≤ (parseRate cfg.externalRateLimit).1) {header : Option String}
    (h : Tracks cfg past (op :: rest) w)
    (h' : Tracks cfg (concerning header past) (op :: rest') w') (hop : concerns header op = true) :
    (serveKeys cfg w op).2 = (serveKeys cfg w' op).2 := by
  have hout := h.out_concerning header
  have hrows : w.db.apiKeys.rows.map core = w'.db.apiKeys.rows.map core := by
    rw [h.rows, h'.rows, hout]
  cases op with
  | create c name createdBy => exact serveKeys_congr hrows fun _ _ _ _ he => by cases he
  | revoke c keyId => exact serveKeys_congr hrows fun _ _ _ _ he => by cases he
  | external c S image key =>
    obtain rfl : key = header := by simpa [concerns] using hop
    rw [serveKeys_external, serveKeys_external]
    refine congrArg KeyAnswer.admitted ((h.admits hlimit).congr (h'.admits hlimit) ?_ ?_)
    · intro raw _
      rw [holds_iff, holds_iff, hout]
    · rintro raw rfl
      rw [InBudget, InBudget, lastWindow_concerning]

end

/-! ### Runs -/

/-- A request passes iff its header is a key that is out and has budget left. -/
def AdmitsHolders (cfg : KeySettings) (run : List KeyEvent) : Prop :=
  ∀ past c S image key r future,
    run = past ++ (.external c S image key, .admitted r) :: future →
      ((∃ u, r = .ok u) ↔
        ∃ raw, key = some raw ∧ Holds past raw ∧ InBudget cfg past raw c.monotonic)

/-- From an empty table and no buckets, holders are admitted, and without the requests with other
headers the rest is answered the same. -/
theorem api_keys_admit (cfg : KeySettings) (w : KeyWorld) (ops : List KeyOp)
    (hlimit : 1 ≤ (parseRate cfg.externalRateLimit).1) (hkeys : w.db.apiKeys = Table.empty)
    (hbuckets : w.buckets = fun _ => none) (hfresh : Fresh cfg ops) :
    AdmitsHolders cfg (Machine.outputs (serveKeys cfg) w ops) ∧
      ∀ header, Machine.outputs (serveKeys cfg) w (ops.filter (concerns header)) =
        concerning header (Machine.outputs (serveKeys cfg) w ops) := by
  have hstart : Tracks cfg [] ops w := tracks_start hfresh hkeys hbuckets
  constructor
  · intro past c S image key r future hrun
    obtain ⟨t, rest, htracks, hanswer⟩ := Machine.history_inv
      (fun past op rest w (h : Tracks cfg past (op :: rest) w) => h.step hlimit) hstart hrun
    rw [serveKeys_external] at hanswer
    obtain rfl := KeyAnswer.admitted.inj hanswer
    exact (htracks.admits hlimit).ok_iff
  · intro header
    refine Machine.outputs_filter (R := fun rest s t => ∃ past, Tracks cfg past rest s ∧
      Tracks cfg (concerning header past) (rest.filter (concerns header)) t) ?_ ?_ ⟨[], hstart, ?_⟩
    · rintro op rest s t hop ⟨past, hs, ht⟩
      rw [List.filter_cons_of_pos hop] at ht
      have hanswer := hs.answer_eq hlimit ht hop
      refine ⟨hanswer, _, hs.step hlimit, ?_⟩
      have hnext := ht.step hlimit
      rw [← hanswer] at hnext
      rwa [concerning_concat, if_pos hop]
    · rintro op rest s t hop ⟨past, hs, ht⟩
      rw [List.filter_cons_of_neg (by simp [hop])] at ht
      refine ⟨_, hs.step hlimit, ?_⟩
      rwa [concerning_concat, if_neg (by simp [hop])]
    · exact tracks_start (hfresh.sublist List.filter_sublist) hkeys hbuckets

def partnerKey : String := "frk_k7Qm2xVb9TzR4nLpW8sYd3HfJc6GvA1eUoXi5BtNqM0"

/-- SHA-256 on the strings of the run, and one request in a minute. -/
def partnerSettings : KeySettings where
  hashApiKey s :=
    if s = partnerKey then "921af0354c3f86a726dbd18212ea49c90ba4f0f719da8e9a3068d1ad954688df"
    else if s = "" then "e3b0c44298fc1c149afbf4c8996fb92427ae41e4649b934ca495991b7852b855"
    else "1173cce45ef9e37ddcd67fa84aeca8be91842a66b1ba79a3b839085db5b75fba"
  externalRateLimit := "1/minute"

def partnerContext (monotonic : ℚ) : KeyContext where
  now := 0
  personId := 0
  faceId := 0
  logId := 0
  keyId := 7
  token := "k7Qm2xVb9TzR4nLpW8sYd3HfJc6GvA1eUoXi5BtNqM0"
  utcNow := 0
  monotonic := monotonic

def partnerSearch (monotonic : ℚ) (key : Option String) : KeyOp :=
  .external (partnerContext monotonic) Services.RecognitionService.oneFaceService
    ⟨none, [255], none⟩ key

/-- A partner searches twice in a minute and once after it, among requests with other headers. -/
def partnerOps : List KeyOp :=
  [.create (partnerContext 0) "partner" none, partnerSearch 10 (some partnerKey),
    partnerSearch 11 (some "frk_revoked"), partnerSearch 12 none, partnerSearch 20 (some partnerKey),
    partnerSearch 70 (some partnerKey), .revoke (partnerContext 80) 7,
    partnerSearch 140 (some partnerKey)]

def partnerWorld : KeyWorld := ⟨⟨Database.empty, Table.empty⟩, fun _ => none⟩

theorem fresh_partnerOps : Fresh partnerSettings partnerOps where
  ids := by decide
  tokens := by decide
  hashes := by
    have hinj : ∀ s ∈ partnerOps.flatMap KeyOp.strings, ∀ t ∈ partnerOps.flatMap KeyOp.strings,
        partnerSettings.hashApiKey s = partnerSettings.hashApiKey t → s = t := by decide +kernel
    intro s hs t ht
    exact hinj s (List.mem_flatMap.2 hs) t (List.mem_flatMap.2 ht)

theorem api_keys_admit_partner :
    (Machine.outputs (serveKeys partnerSettings) partnerWorld partnerOps).filterMap
        (passed partnerKey) = [10, 70] ∧
      AdmitsHolders partnerSettings
          (Machine.outputs (serveKeys partnerSettings) partnerWorld partnerOps) ∧
        ∀ header, Machine.outputs (serveKeys partnerSettings) partnerWorld
            (partnerOps.filter (concerns header)) =
          concerning header
            (Machine.outputs (serveKeys partnerSettings) partnerWorld partnerOps) :=
  ⟨by decide +kernel, api_keys_admit partnerSettings partnerWorld partnerOps (by decide +kernel) rfl
    rfl fresh_partnerOps⟩

end FaceRecognition.Api
