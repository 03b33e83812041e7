import FaceRecognition.Services.BulkImport

/-!
# The folder import of the browser

What `app.js` makes of the files of a picked folder: the images among them, each with the name of a
person, which `POST /faces/enroll` receives as a field of a form and strips. A name gets through
unchanged when it is `Plain` (`storedName_eq_self_iff`).
-/

namespace FaceRecognition.Frontend

open Services Trimming

/-! ### Text in the browser -/

/-- What `trim` of the browser removes. -/
def isWhiteSpace (c : Char) : Bool :=
  let n := c.toNat
  (9 ≤ n && n ≤ 13) || n = 0x20 || n = 0xa0 || n = 0x1680 || (0x2000 ≤ n && n ≤ 0x200a) ||
    n = 0x2028 || n = 0x2029 || n = 0x202f || n = 0x205f || n = 0x3000 || n = 0xfeff

/-- `s.trim()` -/
def trimText (s : String) : String := String.ofList (trim isWhiteSpace s.toList)

/-- `replace(/[_]+/g, ' ')` from a place on that is inside a run of underscores or not. -/
def spaceRuns : Bool → List Char → List Char
  | _, [] => []
  | inRun, c :: cs =>
    if c = '_' then
      if inRun then spaceRuns true cs else ' ' :: spaceRuns true cs
    else c :: spaceRuns false cs

def replaceUnderscores (s : String) : String := String.ofList (spaceRuns false s.toList)

/-- In the body of a form a CR or LF that stands alone becomes CR LF. -/
def normalizeNewlines : List Char → List Char
  | [] => []
  | '\r' :: '\n' :: cs => '\r' :: '\n' :: normalizeNewlines cs
  | '\r' :: cs => '\r' :: '\n' :: normalizeNewlines cs
  | '\n' :: cs => '\r' :: '\n' :: normalizeNewlines cs
  | c :: cs => c :: normalizeNewlines cs

/-- The text of a form field that the server reads. -/
def formField (s : String) : String := String.ofList (normalizeNewlines s.toList)

/-! ### The picked files -/

structure BrowserFile where
  name : String
  webkitRelativePath : String
  /-- where the file is -/
  path : Path

/-- What `IMG_RE` finds at the end of a name, in either case of the letters. -/
def imgExtensions : List String := [".jpg", ".jpeg", ".png", ".webp", ".bmp"]

/-- `IMG_RE.test(name)` -/
def imgRe (name : String) : Bool :=
  imgExtensions.any fun ext => ext.toList.isSuffixOf (lower name).toList

structure ImportItem where
  personName : String
  file : BrowserFile

def personName (person : String) : String :=
  let trimmed := trimText (replaceUnderscores person)
  if trimmed = "" then "Imported" else trimmed

def importItem (f : BrowserFile) : ImportItem :=
  let path := if f.webkitRelativePath = "" then f.name else f.webkitRelativePath
  let parts := (path.toList.splitOn '/').map String.ofList
  let person := if h : parts.length ≥ 2 then parts[parts.length - 2] else "Imported"
  ⟨personName person, f⟩

/-- The handler of `impFiles.onchange`. -/
def impFiles (files : List BrowserFile) : List ImportItem :=
  (files.filter fun f => imgRe f.name).map importItem

/-- The `full_name` that `registerByName` gives to the person it is sent. -/
def storedName (personName : String) : String := strip (formField personName)

/-- A request of the import: the name under which it enrols and the image. -/
def sentPair (it : ImportItem) : Pair := (storedName it.personName, it.file.path)

def sentPairs (files : List BrowserFile) : List Pair := (impFiles files).map sentPair

/-! ### Names that get through unchanged -/

theorem underscore_not_mem_spaceRuns (inRun : Bool) (cs : List Char) :
    '_' ∉ spaceRuns inRun cs := by
  fun_induction spaceRuns inRun cs with
  | case1 => simp
  | case2 cs ih => exact ih
  | case3 inRun cs _ ih => simp [ih]
  | case4 inRun c cs hc ih => simp [ih, Ne.symm hc]

theorem spaceRuns_eq_self {cs : List Char} (h : '_' ∉ cs) (inRun : Bool) :
    spaceRuns inRun cs = cs := by
  induction cs generalizing inRun with
  | nil => rfl
  | cons c cs ih =>
    obtain ⟨hc, hcs⟩ := not_or.1 (mt List.mem_cons.2 h)
    rw [spaceRuns, if_neg (Ne.symm hc), ih hcs]

/-- Neither CR nor LF. -/
def inLine (c : Char) : Bool := c ≠ '\r' && c ≠ '\n'

theorem inLine_of_isSpace {c : Char} (h : isSpace c = false) : inLine c = true := by
  by_contra hc
  simp only [inLine, ne_eq, Bool.and_eq_true, decide_eq_true_eq, not_and_or, not_not] at hc
  rcases hc with rfl | rfl <;> exact absurd h (by decide)

/-- CR and LF stand only as CR LF. -/
def newlinesPaired : List Char → Bool
  | [] => true
  | '\r' :: '\n' :: cs => newlinesPaired cs
  | c :: cs => inLine c && newlinesPaired cs

theorem countP_normalizeNewlines {q : Char → Bool} (hr : q '\r' = false) (hn : q '\n' = false)
    (cs : List Char) : (normalizeNewlines cs).countP q = cs.countP q := by
  fun_induction normalizeNewlines cs with
  | case1 => rfl
  | case2 cs ih => simp [hr, hn, ih]
  | case3 cs _ ih => simp [hr, hn, ih]
  | case4 cs ih => simp [hr, hn, ih]
  | case5 c cs _ _ _ ih => simp [List.countP_cons, ih]

theorem mem_of_mem_normalizeNewlines {c : Char} (hc : inLine c = true) {cs : List Char}
    (h : c ∈ normalizeNewlines cs) : c ∈ cs := by
  obtain ⟨hr, hn⟩ : c ≠ '\r' ∧ c ≠ '\n' := by simpa [inLine] using hc
  rw [← List.count_pos_iff, List.count] at h ⊢
  rwa [countP_normalizeNewlines (by simpa using Ne.symm hr) (by simpa using Ne.symm hn)] at h

theorem normalizeNewlines_cons {c : Char} (hc : inLine c = true) (cs : List Char) :
    normalizeNewlines (c :: cs) = c :: normalizeNewlines cs := by
  obtain ⟨hr, hn⟩ : c ≠ '\r' ∧ c ≠ '\n' := by simpa [inLine] using hc
  rw [normalizeNewlines]
  · exact fun _ h => absurd h hr
  · exact hr
  · exact hn

theorem normalizeNewlines_concat {c : Char} (hc : inLine c = true) (cs : List Char) :
    normalizeNewlines (cs ++ [c]) = normalizeNewlines cs ++ [c] := by
  fun_induction normalizeNewlines cs with
  | case1 => exact normalizeNewlines_cons hc []
  | case2 cs ih => simp [normalizeNewlines, ih]
  | case3 cs hcs ih =>
    rw [List.cons_append, normalizeNewlines, ih]
    · rfl
    · intro cs' h
      cases cs with
      | nil => simp_all [inLine]
      | cons d cs => exact hcs cs (by simp_all)
  | case4 cs ih => simp [normalizeNewlines, ih]
  | case5 d cs _ hr hn ih =>
    rw [List.cons_append, normalizeNewlines_cons (by simp_all [inLine]), ih]
    rfl

theorem ends_normalizeNewlines {cs : List Char} (h : Ends (inLine · = true) cs) :
    Ends (inLine · = true) (normalizeNewlines cs) where
  first c hc := by
    cases cs with
    | nil => cases hc
    | cons d cs =>
      rw [normalizeNewlines_cons (h.first d rfl)] at hc
      exact h.first c hc
  last c hc := by
    obtain rfl | ⟨cs, d, rfl⟩ := cs.eq_nil_or_concat'
    · cases hc
    · have hd := h.last d (by simp)
      rw [normalizeNewlines_concat hd, List.getLast?_concat] at hc
      cases hc
      exact hd

theorem normalizeNewlines_eq_self_iff {cs : List Char} :
    normalizeNewlines cs = cs ↔ newlinesPaired cs = true := by
  fun_induction normalizeNewlines cs with
  | case1 => exact iff_of_true rfl rfl
  | case2 cs ih => simp [newlinesPaired, ih]
  | case3 cs hcs ih =>
    refine iff_of_false (fun h => hcs _ (List.cons.inj h).2.symm) ?_
    rw [newlinesPaired]
    · simp [inLine]
    · exact fun cs' _ => hcs cs'
  | case4 cs ih =>
    refine iff_of_false (fun h => by simp at h) ?_
    simp [newlinesPaired, inLine]
  | case5 c cs hpair hr hn ih =>
    have hc : inLine c = true := by simp_all [inLine]
    rw [newlinesPaired]
    · simp [hc, ih]
    · exact hpair

/-- No underscore, no white space at the ends and no CR or LF that stands alone. -/
structure Plain (name : String) : Prop where
  no_underscore : '_' ∉ name.toList
  ends : Ends (fun c => isSpace c = false ∧ isWhiteSpace c = false) name.toList
  newlines : newlinesPaired name.toList = true

theorem toList_trimText (s : String) : (trimText s).toList = trim isWhiteSpace s.toList :=
  String.toList_ofList

theorem toList_replaceUnderscores (s : String) :
    (replaceUnderscores s).toList = spaceRuns false s.toList :=
  String.toList_ofList

theorem toList_storedName (s : String) :
    (storedName s).toList = trim isSpace (normalizeNewlines s.toList) := by
  rw [storedName, toList_strip, formField, String.toList_ofList]

/-- What is not white space for the server survives every step, so nothing of the name may be
trimmed in the browser or doubled on the way. -/
theorem plain_of_unchanged {name : String}
    (h : storedName (trimText (replaceUnderscores name)) = name) : Plain name := by
  replace h := congrArg String.toList h
  rw [toList_storedName, toList_trimText, toList_replaceUnderscores] at h
  have hunder : '_' ∉ name.toList := fun hmem =>
    underscore_not_mem_spaceRuns false name.toList (trim_sublist.mem
      (mem_of_mem_normalizeNewlines rfl (trim_sublist.mem (h.symm ▸ hmem))))
  rw [spaceRuns_eq_self hunder] at h
  have hspace : Ends (isSpace · = false) name.toList := h ▸ ends_trim isSpace _
  have hline : Ends (inLine · = true) name.toList :=
    hspace.imp fun _ => inLine_of_isSpace
  have hcount : name.toList.countP inLine ≤ (trim isWhiteSpace name.toList).countP inLine :=
    calc name.toList.countP inLine
      _ = (trim isSpace (normalizeNewlines (trim isWhiteSpace name.toList))).countP inLine := by
        rw [h]
      _ ≤ (normalizeNewlines (trim isWhiteSpace name.toList)).countP inLine :=
        trim_sublist.countP_le
      _ = (trim isWhiteSpace name.toList).countP inLine := countP_normalizeNewlines rfl rfl _
  have hwhite := trim_eq_self_of_countP hline hcount
  rw [hwhite] at h
  have hbreaks : normalizeNewlines name.toList = name.toList := by
    rw [← trim_eq_self_of_countP (p := isSpace) (ends_normalizeNewlines hline), h]
    rw [h, countP_normalizeNewlines rfl rfl]
  exact ⟨hunder, ends_and.2 ⟨hspace, trim_eq_self_iff.1 hwhite⟩,
    normalizeNewlines_eq_self_iff.1 hbreaks⟩

theorem unchanged_of_plain {name : String} (h : Plain name) :
    trimText (replaceUnderscores name) = name ∧ storedName name = name := by
  obtain ⟨hspace, hwhite⟩ := ends_and.1 h.ends
  constructor <;> apply String.toList_injective
  · rw [toList_trimText, toList_replaceUnderscores, spaceRuns_eq_self h.no_underscore,
      trim_eq_self_of_ends hwhite]
  · rw [toList_storedName, normalizeNewlines_eq_self_iff.2 h.newlines,
      trim_eq_self_of_ends hspace]

/-- The person of a folder has the name of the folder when that is plain. -/
theorem storedName_eq_self_iff {name : String} (hne : name ≠ "") :
    storedName (personName name) = name ↔ Plain name := by
  rw [personName]
  constructor
  · intro h
    split_ifs at h with htrimmed
    · have himported : storedName "Imported" = "Imported" := by decide +kernel
      rw [← h, himported]
      exact ⟨by decide, by decide, by decide⟩
    · exact plain_of_unchanged h
  · intro h
    obtain ⟨hbrowser, hserver⟩ := unchanged_of_plain h
    rw [hbrowser, if_neg hne, hserver]

end FaceRecognition.Frontend
