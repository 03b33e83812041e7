import FaceRecognition.Db.Repositories
import FaceRecognition.Db.Mirror

/-!
# Searches by an index scan

`FaceRepository.search` sets `hnsw.ef_search` for its transaction and takes the first `top_k` rows
of a scan of the partial HNSW index. A scan yields no more than `ef_search` rows, and nothing
relates this setting to the `top_k` that the endpoint accepts: the search returns the `top_k`
nearest active faces iff one of `top_k` and the number of these faces is at most `ef_search`
(`search_returns_nearest_iff`). Then it returns what a search without the index does
(`exec_searchIndexed`).
-/

namespace FaceRecognition.Db

open Relational Recognition UnitOfWork

/-- The first `k` of the rows by their distance to the query, in some order of the ties. -/
def Nearest (G : Gallery) (q : Embedding) (k : ℕ) (rows l : List Face) : Prop :=
  ∃ arranged : List Face, arranged.Perm rows ∧
    arranged.Pairwise (fun f f' => G.distance f.embedding q ≤ G.distance f'.embedding q) ∧
      l = arranged.take k

section
variable {G : Gallery} {q : Embedding} {k : ℕ} {rows l : List Face}

theorem Nearest.length_eq (h : Nearest G q k rows l) : l.length = min k rows.length := by
  obtain ⟨arranged, hperm, -, rfl⟩ := h
  rw [List.length_take, hperm.length_eq]

theorem Nearest.subset (h : Nearest G q k rows l) : ∀ f ∈ l, f ∈ rows := by
  obtain ⟨arranged, hperm, -, rfl⟩ := h
  exact fun f hf => hperm.mem_iff.1 (List.mem_of_mem_take hf)

theorem Nearest.take {j : ℕ} (h : Nearest G q k rows l) (hj : j ≤ k ∨ rows.length ≤ k) :
    Nearest G q j rows (l.take j) := by
  obtain ⟨arranged, hperm, hsorted, rfl⟩ := h
  refine ⟨arranged, hperm, hsorted, ?_⟩
  rcases hj with hj | hall
  · rw [List.take_take, min_eq_left hj]
  · rw [List.take_of_length_le (hperm.length_eq.le.trans hall)]

theorem nearest_sort (G : Gallery) (q : Embedding) (k : ℕ) (rows : List Face) :
    Nearest G q k rows ((rows.insertionSort (G.Before q)).take k) :=
  ⟨_, List.perm_insertionSort _ rows,
    (List.pairwise_insertionSort (G.Before q) rows).imp fun h => h.distance_le, rfl⟩

end

/-- The extension, by what the code uses of it. -/
structure Pgvector (G : Gallery) where
  /-- What `SET LOCAL hnsw.ef_search` raises for a value that it does not take. -/
  refusal : ℤ → Option Exc
  scan : ℕ → Embedding → List Face → List Face
  /-- A scan yields the `ef_search` nearest of the indexed rows, or all of them. -/
  nearest : ∀ efSearch q indexed, Nearest G q efSearch indexed (scan efSearch q indexed)

namespace FaceRepository

variable {G : Gallery} (V : Pgvector G)

/-- `SET LOCAL hnsw.ef_search` -/
def setEfSearch (efSearch : ℤ) : SessionM Unit :=
  query pendingRollback (V.refusal efSearch) fun _ => .ok ()

/-- The rows of the index that serves the query. -/
def indexed (onlyActive : Bool) (db : Database) : List Face :=
  db.faces.rows.filter fun f => if onlyActive then f.isActive else true

/-- `JOIN persons p ON p.id = f.person_id` -/
def searchRow (G : Gallery) (q : Embedding) (db : Database) (f : Face) : Option SearchRow :=
  (db.persons.get? f.personId).map fun p => toSearchRow G q (f, p)

def scanRows (efSearch : ℕ) (q : Embedding) (topK : ℕ) (onlyActive : Bool) (db : Database) :
    List SearchRow :=
  ((V.scan efSearch q (indexed onlyActive db)).filterMap (searchRow G q db)).take topK

/-- `search`, with the setting and the scan it is about. -/
def searchIndexed (efSearch : ℤ) (c : Context) (embedding : Embedding) (topK : ℤ)
    (onlyActive : Bool := true) : SessionM (List SearchRow) := do
  setEfSearch V efSearch
  query pendingRollback (c.fault .searchFaces) fun db =>
    if topK < 0 then .error ⟨.dataError, "LIMIT must not be negative", []⟩
    else .ok (scanRows V efSearch.toNat (queryVec embedding) topK.toNat onlyActive (c.view db))

end FaceRepository

/-- Without other clients and failures. -/
def Context.quiet (c : Context) : Context := { c.alone with fault := fun _ => none }

/-- The search returns as many rows as are asked for and there are, and the nearest ones. -/
def ReturnsNearest {G : Gallery} (V : Pgvector G) (efSearch : ℤ) (c : Context)
    (embedding : Embedding) (topK : ℕ) (db : Database) : Prop :=
  ∃ rows s, exec (FaceRepository.searchIndexed V efSearch c.quiet embedding topK)
      (Session.begin db) = (.ok rows, s) ∧
    rows.length = min topK (FaceRepository.indexed true db).length ∧
      ∃ l, Nearest G (FaceRepository.queryVec embedding) topK (FaceRepository.indexed true db) l ∧
        rows = l.filterMap (FaceRepository.searchRow G (FaceRepository.queryVec embedding) db)

section
variable {G : Gallery} {V : Pgvector G} {q : Embedding} {db : Database}

theorem filterMap_searchRow (h : HasPerson db) {l : List Face} (hl : ∀ f ∈ l, f ∈ db.faces.rows)
    (k : ℕ) : (l.filterMap (FaceRepository.searchRow G q db)).take k =
        (l.take k).filterMap (FaceRepository.searchRow G q db) ∧
      (l.filterMap (FaceRepository.searchRow G q db)).length = l.length := by
  induction l generalizing k with
  | nil => simp
  | cons f l ih =>
    obtain ⟨p, hp⟩ := Option.isSome_iff_exists.1 (h f (hl f List.mem_cons_self))
    have hrow : FaceRepository.searchRow G q db f =
        some (FaceRepository.toSearchRow G q (f, p)) := by
      rw [FaceRepository.searchRow, hp]
      rfl
    have hrest := ih fun g hg => hl g (List.mem_cons_of_mem f hg)
    rw [List.filterMap_cons_some hrow, List.length_cons, List.length_cons, (hrest 0).2]
    cases k with
    | zero => exact ⟨rfl, rfl⟩
    | succ k =>
      rw [List.take_succ_cons, List.take_succ_cons, List.filterMap_cons_some hrow, (hrest k).1]
      exact ⟨rfl, rfl⟩

theorem mem_indexed {onlyActive : Bool} {f : Face} (h : f ∈ FaceRepository.indexed onlyActive db) :
    f ∈ db.faces.rows := (List.mem_filter.1 h).1

theorem scanRows_eq (h : HasPerson db) (efSearch topK : ℕ) (onlyActive : Bool) :
    FaceRepository.scanRows V efSearch q topK onlyActive db =
      ((V.scan efSearch q (FaceRepository.indexed onlyActive db)).take topK).filterMap
        (FaceRepository.searchRow G q db) :=
  (filterMap_searchRow h (fun f hf => mem_indexed ((V.nearest _ _ _).subset f hf)) topK).1

theorem length_scanRows (h : HasPerson db) (efSearch topK : ℕ) (onlyActive : Bool) :
    (FaceRepository.scanRows V efSearch q topK onlyActive db).length =
      min topK (min efSearch (FaceRepository.indexed onlyActive db).length) := by
  have hnearest := V.nearest efSearch q (FaceRepository.indexed onlyActive db)
  rw [scanRows_eq h, (filterMap_searchRow h (fun f hf => mem_indexed (hnearest.subset f
    (List.mem_of_mem_take hf))) 0).2, List.length_take, hnearest.length_eq]

theorem exec_searchIndexed {efSearch : ℤ} {c : Context} (embedding : Embedding) (topK : ℕ) :
    exec (FaceRepository.searchIndexed V efSearch c.quiet embedding topK) (Session.begin db) =
      match V.refusal efSearch with
      | some e => (.error e, ⟨db, db, true⟩)
      | none => (.ok (FaceRepository.scanRows V efSearch.toNat (FaceRepository.queryVec embedding)
          topK true db), Session.begin db) := by
  rw [FaceRepository.searchIndexed, exec_bind, FaceRepository.setEfSearch, Session.begin,
    exec_query]
  cases V.refusal efSearch with
  | some e => rfl
  | none =>
    dsimp only
    rw [attempt_none]
    dsimp only
    rw [exec_query, if_neg (by omega), Context.view_of_alone rfl, Int.toNat_natCast]
    rfl

/-- **A search returns as many candidates as asked for** iff the setting is taken and not less than
`top_k`, or than the number of active faces. -/
theorem search_returns_nearest_iff (V : Pgvector G) (efSearch : ℤ) (c : Context)
    (embedding : Embedding) (topK : ℕ) (db : Database) (h : HasPerson db) :
    ReturnsNearest V efSearch c embedding topK db ↔ V.refusal efSearch = none ∧
      (topK ≤ efSearch.toNat ∨ (FaceRepository.indexed true db).length ≤ efSearch.toNat) := by
  rw [ReturnsNearest, exec_searchIndexed]
  cases hrefusal : V.refusal efSearch with
  | some e =>
    constructor
    · rintro ⟨rows, s, hexec, -⟩
      cases hexec
    · rintro ⟨hnone, -⟩
      cases hnone
  | none =>
    rw [eq_self_iff_true, true_and]
    constructor
    · rintro ⟨rows, s, hexec, hlength, -⟩
      cases hexec
      rw [length_scanRows h] at hlength
      omega
    · intro henough
      refine ⟨_, _, rfl, ?_, _, (V.nearest efSearch.toNat _ _).take henough, scanRows_eq h _ _ _⟩
      rw [length_scanRows h]
      omega

end

/-! ### The exact scan -/

/-- A scan that sorts all rows, for the values that the extension takes. -/
def sorting (G : Gallery) : Pgvector G where
  refusal efSearch :=
    if 1 ≤ efSearch ∧ efSearch ≤ 1000 then none
    else some ⟨.dataError, toString efSearch ++
      " is outside the valid range for parameter \"hnsw.ef_search\" (1 .. 1000)", []⟩
  scan efSearch q indexed := (indexed.insertionSort (G.Before q)).take efSearch
  nearest efSearch q indexed := nearest_sort G q efSearch indexed

theorem sort_pairs (G : Gallery) (q : Embedding) (person : Face → Person) (l : List Face) :
    (l.map fun f => (f, person f)).insertionSort (fun r r' => G.Before q r.1 r'.1) =
      (l.insertionSort (G.Before q)).map fun f => (f, person f) := by
  symm
  apply List.map_insertionSort
  intro f _ f' _
  exact Iff.rfl

/-- The exact query takes its rows from the sorted index. -/
theorem searchRows_eq {G : Gallery} {db : Database} (h : HasPerson db) (q : Embedding) (topK : ℕ) :
    FaceRepository.searchRows G (fun r => if true then r.1.isActive else true) q topK db =
      (((FaceRepository.indexed true db).insertionSort (G.Before q)).take topK).filterMap
        (FaceRepository.searchRow G q db) := by
  have hperson : Nonempty Person := ⟨alice⟩
  have hsome : ∀ f ∈ db.faces.rows, ∃ p, db.persons.get? f.personId = some p := fun f hf =>
    Option.isSome_iff_exists.1 (h f hf)
  choose! person hget using hsome
  have hjoined : FaceRepository.joined db = db.faces.rows.map fun f => (f, person f) := by
    rw [FaceRepository.joined, ← List.filterMap_eq_map]
    refine List.filterMap_congr fun f hf => ?_
    rw [hget f hf]
    rfl
  have hrow : ∀ f ∈ ((FaceRepository.indexed true db).insertionSort (G.Before q)).take topK,
      FaceRepository.searchRow G q db f = some (FaceRepository.toSearchRow G q (f, person f)) := by
    intro f hf
    have hmem := mem_indexed ((List.mem_insertionSort _).1 (List.mem_of_mem_take hf))
    rw [FaceRepository.searchRow, hget f hmem]
    rfl
  have hfilter : (db.faces.rows.map fun f => (f, person f)).filter
      (fun r => if true then r.1.isActive else true) =
        (FaceRepository.indexed true db).map fun f => (f, person f) := List.filter_map
  rw [List.filterMap_congr hrow, List.filterMap_eq_map', FaceRepository.searchRows, hjoined,
    hfilter, sort_pairs, ← List.map_take, List.map_map]
  rfl

/-- When enough rows are scanned, the search is the one without the index. -/
theorem searchIndexed_eq_search {G : Gallery} {efSearch : ℤ} {c : Context} {topK : ℕ}
    {db : Database} (h : HasPerson db) (embedding : Embedding)
    (htaken : (sorting G).refusal efSearch = none)
    (henough : topK ≤ efSearch.toNat ∨ (FaceRepository.indexed true db).length ≤ efSearch.toNat) :
    exec (FaceRepository.searchIndexed (sorting G) efSearch c.quiet embedding topK)
        (Session.begin db) =
      exec (FaceRepository.search G c.quiet embedding topK) (Session.begin db) := by
  have hscan : ((sorting G).scan efSearch.toNat (FaceRepository.queryVec embedding)
      (FaceRepository.indexed true db)).take topK = ((FaceRepository.indexed true db).insertionSort
        (G.Before (FaceRepository.queryVec embedding))).take topK := by
    show (List.take _ _).take topK = _
    rcases henough with hle | hle
    · rw [List.take_take, min_eq_left hle]
    · rw [List.take_of_length_le ((List.length_insertionSort _ _).le.trans hle)]
  rw [exec_searchIndexed, htaken, FaceRepository.search, FaceRepository.searchWhere, Session.begin,
    exec_query, if_neg (by omega), Context.view_of_alone rfl, Int.toNat_natCast, searchRows_eq h,
    scanRows_eq h, hscan]
  rfl

def atNoonQuiet : Context := ⟨0, 0, 0, 0, [], fun _ => none⟩

def exactGallery : Gallery := ⟨planarDistance, fun id => id⟩

/-- A unit vector of the plane: the greater `t` in [0, 1], the farther from the first axis. -/
def turned (t : ℚ) : Embedding := planar ((1 - t ^ 2) / (1 + t ^ 2)) (2 * t / (1 + t ^ 2))

/-- As many active faces of Alice, each farther from the first axis than the one before. -/
def aliceTimes (n : ℕ) : Database :=
  { onlyAlice with
    faces := ⟨(List.range n).map fun i =>
        { aliceFace with id := i, embedding := turned (i / n) }, by
      rw [List.map_map]
      simpa [Function.comp_def] using List.nodup_range⟩ }

theorem hasPerson_aliceTimes (n : ℕ) : HasPerson (aliceTimes n) := by
  intro f hf
  obtain ⟨i, -, rfl⟩ := List.mem_map.1 hf
  rfl

theorem length_indexed_aliceTimes (n : ℕ) :
    (FaceRepository.indexed true (aliceTimes n)).length = n := by
  rw [FaceRepository.indexed, aliceTimes, List.filter_eq_self.2, List.length_map, List.length_range]
  intro f hf
  obtain ⟨i, -, rfl⟩ := List.mem_map.1 hf
  rfl

theorem search_returns_nearest_ten :
    ReturnsNearest (sorting exactGallery) 80 atNoonQuiet (planar 1 0) 10 (aliceTimes 100) ∧
      (FaceRepository.scanRows (sorting exactGallery) 80 (FaceRepository.queryVec (planar 1 0)) 10
        true (aliceTimes 100)).map SearchRow.faceId = List.range 10 := by
  refine ⟨?_, by decide +kernel⟩
  exact (search_returns_nearest_iff (sorting exactGallery) 80 atNoonQuiet (planar 1 0) 10
    (aliceTimes 100) (hasPerson_aliceTimes 100)).2 ⟨rfl, .inl (by decide)⟩

/-- With the default setting, a search for 100 of 81 active faces returns 80. -/
theorem search_short : (FaceRepository.scanRows (sorting exactGallery) 80 (planar 1 0) 100 true
      (aliceTimes 81)).length = 80 ∧
    ¬ ReturnsNearest (sorting exactGallery) 80 atNoonQuiet (planar 1 0) 100 (aliceTimes 81) := by
  constructor
  · rw [length_scanRows (hasPerson_aliceTimes 81), length_indexed_aliceTimes]
    rfl
  · rintro ⟨rows, s, hexec, hlength, -⟩
    rw [exec_searchIndexed] at hexec
    cases hexec
    rw [length_scanRows (hasPerson_aliceTimes 81), length_indexed_aliceTimes] at hlength
    exact absurd hlength (by decide)

end FaceRecognition.Db
