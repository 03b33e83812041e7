import FaceRecognition.Api.Runs

/-!
# Who is recognised

`search` and `identify_top1` read the faces whose mirrored flag is set, so in a reachable database
they name active persons only. `verify` looks at the faces of the claimed person and never at
`is_active`: it accepts a deactivated person exactly when one of the faces reaches the threshold, or
when there is no face and the threshold is not positive.
-/

namespace FaceRecognition.Api

open Relational Recognition Db UnitOfWork Services RecognitionService

inductive Query where
  | verify (personId : UUID) (data : Bytes)
  | search (data : Bytes) (topK : Option ℤ)
  | identifyTop1 (data : Bytes)

inductive Response where
  | verify (a : VerifyResponse)
  | search (a : SearchResponse)
  | identifyTop1 (a : ExternalSearchResponse)

/-- The service answers the query with the response. -/
inductive Answered (S : RecognitionService) (c : Context) (db : Database) :
    Query → Response → Prop
  | verify {p : UUID} {data : Bytes} {a : VerifyResponse} (h : Answers (S.verify c p data) db a) :
    Answered S c db (.verify p data) (.verify a)
  | search {data : Bytes} {topK : Option ℤ} {a : SearchResponse}
    (h : Answers (S.search c data topK) db a) : Answered S c db (.search data topK) (.search a)
  | identifyTop1 {data : Bytes} {a : ExternalSearchResponse}
    (h : Answers (S.identifyTop1 c data) db a) :
    Answered S c db (.identifyTop1 data) (.identifyTop1 a)

/-- The response has a match for the person. -/
def Response.Names : Response → UUID → Prop
  | .verify a, p => a.matched = true ∧ a.personId = p
  | .search a, p => ∃ m ∈ a.matches, m.personId = p
  | .identifyTop1 a, p => a.matched = true ∧ a.personId = some p

/-- Nobody whose `is_active` is false is named. -/
def NamesActiveOnly (db : Database) (response : Response) : Prop :=
  ∀ p, response.Names p → flag db p ≠ some false

/-- A claim to be a deactivated person whom the query image shows: one of the person's faces reaches
the threshold, or there is no face and the threshold is not positive. -/
def ClaimsInactive (S : RecognitionService) (db : Database) : Query → Prop
  | .verify p data => flag db p = some false ∧ ∃ result, S.queryFace data = .ok result ∧
      ((∃ f ∈ db.faces.rows, f.personId = p ∧ S.similar result.embedding f = true) ∨
        (∀ f ∈ db.faces.rows, f.personId ≠ p) ∧ S.recognitionThreshold ≤ 0)
  | .search _ _ => False
  | .identifyTop1 _ => False

section
variable {S : RecognitionService} {c : Context} {db : Database} {data : Bytes}

theorem verify_accepts_iff {p : UUID} {e : Embedding} :
    S.recognitionThreshold ≤ ((FaceRepository.bestOfPerson S.gallery p
        (FaceRepository.queryVec e) db).map Prod.snd).getD 0 ↔
      (∃ f ∈ db.faces.rows, f.personId = p ∧ S.similar e f = true) ∨
        (∀ f ∈ db.faces.rows, f.personId ≠ p) ∧ S.recognitionThreshold ≤ 0 := by
  rw [FaceRepository.bestOfPerson]
  set near := (db.faces.rows.filter fun f => f.personId = p).insertionSort
    (S.gallery.Before (FaceRepository.queryVec e)) with hnear
  have hmem : ∀ f, f ∈ near ↔ f ∈ db.faces.rows ∧ f.personId = p := by
    intro f
    simp [hnear]
  have hsorted : near.Pairwise (S.gallery.Before (FaceRepository.queryVec e)) :=
    List.pairwise_insertionSort _ _
  clear_value near
  cases near with
  | nil =>
    have hnone : ∀ f ∈ db.faces.rows, f.personId ≠ p := fun f hf hp =>
      List.not_mem_nil ((hmem f).2 ⟨hf, hp⟩)
    constructor
    · exact fun h => .inr ⟨hnone, h⟩
    · rintro (⟨f, hf, hp, -⟩ | ⟨-, h⟩)
      · exact absurd hp (hnone f hf)
      · exact h
  | cons f rest =>
    have hf := (hmem f).1 List.mem_cons_self
    constructor
    · exact fun h => .inl ⟨f, hf.1, hf.2, similar_iff.2 h⟩
    · rintro (⟨g, hg, hp, hs⟩ | ⟨hnone, -⟩)
      · rcases List.mem_cons.1 ((hmem g).2 ⟨hg, hp⟩) with rfl | hg
        · exact similar_iff.1 hs
        · exact similar_iff.1 (Similar.of_before ((List.pairwise_cons.1 hsorted).1 g hg) hs)
      · exact absurd hf.2 (hnone f hf.1)

theorem verify_namesActiveOnly_iff (hc : c.others = []) {p : UUID} {a : VerifyResponse}
    (h : Answers (S.verify c p data) db a) :
    NamesActiveOnly db (.verify a) ↔ ¬ ClaimsInactive S db (.verify p data) := by
  obtain ⟨person, result, best, hp, hq, rfl, rfl, hmatched, -⟩ := verify_answer hc h
  have hnames : NamesActiveOnly db (.verify a) ↔
      (a.matched = true → flag db a.personId ≠ some false) := by
    constructor
    · exact fun hn hm => hn _ ⟨hm, rfl⟩
    · rintro hn _ ⟨hm, rfl⟩
      exact hn hm
  rw [hnames, hmatched, decide_eq_true_iff, verify_accepts_iff, ClaimsInactive]
  constructor
  · rintro hn ⟨hflag, result', hq', haccepts⟩
    obtain rfl : result = result' := Except.ok.inj (hq.symm.trans hq')
    exact hn haccepts hflag
  · exact fun hn haccepts hflag => hn ⟨hflag, result, hq, haccepts⟩

theorem flag_of_ranking {e : Embedding} {r : Face × Person} (h : r ∈ S.ranking e db) :
    flag db r.1.personId ≠ some false := by
  obtain ⟨-, hp, hactive, -⟩ := mem_ranking.1 h
  simp [flag, hp, hactive]

theorem search_namesActiveOnly (hm : Mirror db) (hc : c.others = []) {topK : Option ℤ}
    {a : SearchResponse} (h : Answers (S.search c data topK) db a) :
    NamesActiveOnly db (.search a) := by
  obtain ⟨result, -, hmatches⟩ := search_answer hc h
  rintro p ⟨m, hmem, rfl⟩
  rw [hmatches, filter_searchRows hm, List.map_map, List.mem_map] at hmem
  obtain ⟨r, hr, rfl⟩ := hmem
  exact flag_of_ranking (List.mem_of_mem_take hr)

theorem identifyTop1_namesActiveOnly (hm : Mirror db) (hc : c.others = [])
    {a : ExternalSearchResponse} (h : Answers (S.identifyTop1 c data) db a) :
    NamesActiveOnly db (.identifyTop1 a) := by
  obtain ⟨result, best, -, hbest, -, hperson, -⟩ := identifyTop1_answer hc h
  rintro p ⟨-, hp⟩
  rw [head_searchRows hm] at hbest
  rw [hperson, hbest, Option.map_map, Option.map_eq_some_iff] at hp
  obtain ⟨r, hr, rfl⟩ := hp
  exact flag_of_ranking (List.mem_of_mem_head? hr)

end

theorem names_active_only_iff {pre : Database0003} {w : World} (hw : Reachable pre w)
    {S : RecognitionService} {c : Context} {query : Query} {response : Response}
    (h : Answered S c.alone w.db query response) :
    NamesActiveOnly w.db response ↔ ¬ ClaimsInactive S w.db query := by
  have hm := mirror_reachable hw
  cases h with
  | verify h => exact verify_namesActiveOnly_iff rfl h
  | search h => exact iff_of_true (search_namesActiveOnly hm rfl h) id
  | identifyTop1 h => exact iff_of_true (identifyTop1_namesActiveOnly hm rfl h) id

/-! ### Alice after her deactivation -/

def acceptedAlice : VerifyResponse := ⟨true, 4 / 5, 35 / 100, 1, some 7⟩

theorem answered_aliceDeactivated : Answered oneFaceService atNoon.alone aliceDeactivated.db
    (.verify 1 []) (.verify acceptedAlice) := by
  have hanswer : (exec (oneFaceService.verify atNoon.alone 1 [])
      (Session.begin aliceDeactivated.db)).1 = .ok acceptedAlice := by decide +kernel
  exact .verify ⟨_, Prod.ext hanswer rfl⟩

theorem verify_accepts_deactivated :
    Reachable aliceBefore aliceDeactivated ∧
      Answered oneFaceService atNoon.alone aliceDeactivated.db (.verify 1 [])
        (.verify acceptedAlice) ∧
      acceptedAlice.matched = true ∧ flag aliceDeactivated.db acceptedAlice.personId = some false ∧
      ¬ NamesActiveOnly aliceDeactivated.db (.verify acceptedAlice) := by
  have hflag : flag aliceDeactivated.db 1 = some false := by decide +kernel
  exact ⟨reachable_aliceDeactivated, answered_aliceDeactivated, rfl, hflag,
    fun h => h 1 ⟨rfl, rfl⟩ hflag⟩

theorem names_active_only_iff_aliceDeactivated :
    NamesActiveOnly aliceDeactivated.db (.verify acceptedAlice) ↔
      ¬ ClaimsInactive oneFaceService aliceDeactivated.db (.verify 1 []) :=
  names_active_only_iff reachable_aliceDeactivated answered_aliceDeactivated

end FaceRecognition.Api
