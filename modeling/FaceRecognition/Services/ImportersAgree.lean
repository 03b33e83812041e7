import FaceRecognition.Frontend.FolderImport
import FaceRecognition.Services.Audit

/-!
# The two folder importers

A folder of folders of pictures can be picked in the browser or named to the server. The browser
sends the pictures one by one, `BulkImportService` discovers them; both enrol each under the name of
its folder, the browser after a clean-up. They import the same pictures under the same names exactly
when the cleaned names are the names and no picture is called like a bare extension
(`importers_agree_iff`).
-/

namespace FaceRecognition.Services

open Recognition Db UnitOfWork Frontend

/-- The server files an image that the browser has sent under the name of its pair. -/
theorem registerByName_sentPair {S : RecognitionService} {c : Context} {item : ImportItem}
    {data : Bytes} {imagePath : Option String} {s s' : Session Database} {a : FaceRegisterResponse}
    (h : exec (S.registerByName c (formField item.personName) data imagePath) s = (.ok a, s')) :
    ∃ person, RecognitionService.FindsOrCreates (c.view s.work) (sentPair item).1 a.personId
      person := by
  obtain ⟨person, -, -, -, hfound, -⟩ := RecognitionService.registerByName_writes h
  exact ⟨person, hfound⟩

/-! ### The extension of a name -/

theorem exists_last {a : Char} {cs : List Char} (h : a ∈ cs) :
    ∃ stem ext, cs = stem ++ a :: ext ∧ a ∉ ext := by
  obtain ⟨front, back, hcs, hfront⟩ := List.eq_append_cons_of_mem (List.mem_reverse.2 h)
  refine ⟨back.reverse, front.reverse, ?_, by simpa using hfront⟩
  rw [← List.reverse_reverse cs, hcs]
  simp

theorem takeWhile_reverse_last {a : Char} {ext : List Char} (hext : a ∉ ext) (stem : List Char) :
    (stem ++ a :: ext).reverse.takeWhile (· ≠ a) = ext.reverse := by
  have hreverse : (stem ++ a :: ext).reverse = ext.reverse ++ a :: stem.reverse := by simp
  rw [hreverse, List.takeWhile_append_of_pos, List.takeWhile_cons_of_neg (by simp),
    List.append_nil]
  intro c hc
  simpa using fun hca : c = a => hext (hca ▸ List.mem_reverse.1 hc)

theorem cons_isSuffix_iff {a : Char} {stem ext body : List Char} (hbody : a ∉ body)
    (hext : a ∉ ext) : a :: body <:+ stem ++ a :: ext ↔ body = ext := by
  constructor
  · rintro ⟨stem', h⟩
    rw [← List.reverse_inj, ← takeWhile_reverse_last hbody stem', h, takeWhile_reverse_last hext]
  · rintro rfl
    exact ⟨stem, rfl⟩

theorem toLower_eq_dot_iff {c : Char} : c.toLower = '.' ↔ c = '.' := by
  constructor
  · intro h
    by_cases hupper : c.val ≥ 'A'.val ∧ c.val ≤ 'Z'.val
    · have hlow : 65 ≤ c.val.toNat := hupper.1
      have hhigh : c.val.toNat ≤ 90 := hupper.2
      have hdot : (c.val.toNat + 32) % 2 ^ 32 = 46 :=
        congrArg (fun c => c.val.toNat) ((dif_pos hupper).symm.trans h)
      omega
    · exact (dif_neg hupper).symm.trans h
  · rintro rfl
    rfl

theorem dot_mem_map_toLower {cs : List Char} : '.' ∈ cs.map Char.toLower ↔ '.' ∈ cs := by
  simp [toLower_eq_dot_iff]

namespace Path

def child (p : Path) (name : String) : Path := ⟨p.parts ++ [name]⟩

theorem name_child (p : Path) (name : String) : (p.child name).name = name := by
  simp [child, Path.name]

theorem suffix_of_not_mem {p : Path} (h : '.' ∉ p.name.toList) : p.suffix = "" := by
  have hall : p.name.toList.reverse.takeWhile (· ≠ '.') = p.name.toList.reverse :=
    List.takeWhile_eq_self_iff.2 fun c hc => by
      simpa using fun hdot : c = '.' => h (hdot ▸ List.mem_reverse.1 hc)
  rw [suffix, hall, if_neg (by omega)]

theorem suffix_of_last {p : Path} {stem ext : List Char}
    (hname : p.name.toList = stem ++ '.' :: ext) (hext : '.' ∉ ext) :
    p.suffix = if ext ≠ [] ∧ stem ≠ [] then String.ofList ('.' :: ext) else "" := by
  have htake : p.name.toList.reverse.takeWhile (· ≠ '.') = ext.reverse := by
    rw [hname, takeWhile_reverse_last hext]
  have hlength : ext.reverse.length + 1 < p.name.toList.reverse.length ↔ stem ≠ [] := by
    rw [hname, List.length_reverse, List.length_reverse, List.length_append, List.length_cons,
      ← List.length_pos_iff]
    omega
  rw [suffix, htake]
  simp only [hlength, ne_eq, List.reverse_eq_nil_iff, List.reverse_reverse, String.ofList_cons]
  rfl

end Path

namespace BulkImportService

theorem toList_imageSuffixes {s : String} (h : s ∈ imageSuffixes) :
    ∃ body, s.toList = '.' :: body ∧ '.' ∉ body ∧ body ≠ [] := by
  simp only [imageSuffixes, List.mem_cons, List.not_mem_nil, or_false] at h
  rcases h with rfl | rfl | rfl | rfl | rfl <;> exact ⟨_, rfl, by decide, by decide⟩

theorem imgRe_iff {name : String} :
    imgRe name = true ↔ ∃ s ∈ imageSuffixes, s.toList <:+ (lower name).toList := by
  have hperm : imgExtensions.Perm imageSuffixes := by decide
  simp only [imgRe, List.any_eq_true, List.isSuffixOf_iff_suffix, hperm.mem_iff]

section
variable {p : Path} {stem ext : List Char} (hname : p.name.toList = stem ++ '.' :: ext)
  (hext : '.' ∉ ext)
include hname hext

theorem isSuffix_lower_iff {s : String} (hs : s ∈ imageSuffixes) :
    s.toList <:+ (lower p.name).toList ↔ s = lower (String.ofList ('.' :: ext)) := by
  obtain ⟨body, hbody, hdot, -⟩ := toList_imageSuffixes hs
  have hlower : (lower p.name).toList = stem.map Char.toLower ++ '.' :: ext.map Char.toLower := by
    rw [toList_lower, hname, List.map_append, List.map_cons]
    rfl
  rw [hlower, hbody, cons_isSuffix_iff hdot (mt dot_mem_map_toLower.1 hext), ← String.toList_inj,
    hbody, toList_lower, String.toList_ofList, List.map_cons]
  exact (List.cons_inj_right '.').symm

theorem imgRe_iff_of_last :
    imgRe p.name = true ↔ lower (String.ofList ('.' :: ext)) ∈ imageSuffixes := by
  rw [imgRe_iff]
  constructor
  · rintro ⟨s, hs, hsuffix⟩
    exact (isSuffix_lower_iff hname hext hs).1 hsuffix ▸ hs
  · exact fun hs => ⟨_, hs, (isSuffix_lower_iff hname hext hs).2 rfl⟩

theorem lower_suffix_mem_iff_of_last : lower p.suffix ∈ imageSuffixes ↔
    lower (String.ofList ('.' :: ext)) ∈ imageSuffixes ∧ stem ≠ [] := by
  rw [Path.suffix_of_last hname hext]
  split_ifs with h
  · exact (and_iff_left h.2).symm
  · refine iff_of_false (by decide) fun ⟨hmem, hstem⟩ => h ⟨?_, hstem⟩
    rintro rfl
    exact absurd hmem (by decide)

theorem lower_name_mem_iff_of_last : lower p.name ∈ imageSuffixes ↔
    lower (String.ofList ('.' :: ext)) ∈ imageSuffixes ∧ stem = [] := by
  constructor
  · intro hmem
    have heq := (isSuffix_lower_iff hname hext hmem).1 (List.suffix_refl _)
    have hlength := congrArg (fun s => s.toList.length) heq
    simp only [toList_lower, hname, String.toList_ofList, List.length_map, List.length_append]
      at hlength
    exact ⟨heq ▸ hmem, List.length_eq_zero_iff.1 (by omega)⟩
  · rintro ⟨hmem, rfl⟩
    rw [List.nil_append] at hname
    rwa [← hname, String.ofList_toList] at hmem

end

/-- A picture called like a bare extension is one for the browser only. -/
theorem lower_suffix_mem_iff {p : Path} : lower p.suffix ∈ imageSuffixes ↔
    imgRe p.name = true ∧ lower p.name ∉ imageSuffixes := by
  by_cases hdot : '.' ∈ p.name.toList
  · obtain ⟨stem, ext, hname, hext⟩ := exists_last hdot
    rw [lower_suffix_mem_iff_of_last hname hext, imgRe_iff_of_last hname hext,
      lower_name_mem_iff_of_last hname hext]
    exact and_congr_right fun hmem => not_congr (and_iff_right hmem).symm
  · rw [Path.suffix_of_not_mem hdot]
    refine iff_of_false (by decide) fun ⟨himg, _⟩ => hdot ?_
    obtain ⟨s, hs, hsuffix⟩ := imgRe_iff.1 himg
    obtain ⟨body, hbody, -, -⟩ := toList_imageSuffixes hs
    rw [toList_lower, hbody] at hsuffix
    exact dot_mem_map_toLower.1 (hsuffix.mem List.mem_cons_self)

end BulkImportService

/-! ### A folder of folders -/

/-- What a file or a folder can be called. -/
structure FileName where
  text : String
  ne_empty : text ≠ ""
  no_slash : '/' ∉ text.toList

structure Folder where
  name : FileName
  files : List FileName

/-- A folder whose entries are folders of files. -/
structure FolderTree where
  parent : Path
  name : FileName
  folders : List Folder

namespace FolderTree

variable (T : FolderTree)

def root : Path := T.parent.child T.name.text

def dir (folder : Folder) : Path := T.root.child folder.name.text

def file (folder : Folder) (f : FileName) : Path := (T.dir folder).child f.text

/-- A file of the tree once the root has been picked in the browser. -/
def browserFile (folder : Folder) (f : FileName) : BrowserFile where
  name := f.text
  webkitRelativePath := "/".intercalate [T.name.text, folder.name.text, f.text]
  path := T.file folder f

/-- The file system of the server lists the tree, in any order. -/
structure OnDisk (env : ImportEnv) : Prop where
  root : ∃ entries, env.iterdir T.root = .ok entries ∧
    ∀ p, p ∈ entries ↔ ∃ folder ∈ T.folders, p = T.dir folder
  folder : ∀ folder ∈ T.folders, env.isDir (T.dir folder) = .ok true ∧
    ∃ files, env.iterdir (T.dir folder) = .ok files ∧
      ∀ p, p ∈ files ↔ ∃ f ∈ folder.files, p = T.file folder f

/-- The browser lists the tree, in any order. -/
def Picked (files : List BrowserFile) : Prop :=
  ∀ f, f ∈ files ↔ ∃ folder ∈ T.folders, ∃ name ∈ folder.files, f = T.browserFile folder name

variable {T}

theorem file_inj {folder folder' : Folder} {f f' : FileName} :
    T.file folder f = T.file folder' f' ↔
      folder.name.text = folder'.name.text ∧ f.text = f'.text := by
  simp [file, dir, Path.child]

theorem importItem_browserFile (folder : Folder) (f : FileName) :
    importItem (T.browserFile folder f) =
      ⟨personName folder.name.text, T.browserFile folder f⟩ := by
  have hsplit : (T.browserFile folder f).webkitRelativePath.toList.splitOn '/' =
      [T.name.text.toList, folder.name.text.toList, f.text.toList] := by
    rw [browserFile, String.toList_intercalate]
    exact List.splitOn_intercalate '/' (by simp [FileName.no_slash]) (by simp)
  have hne : (T.browserFile folder f).webkitRelativePath ≠ "" := fun hempty => by
    simp [hempty] at hsplit
  simp [importItem, hne, hsplit]

theorem sentPair_browserFile (folder : Folder) (f : FileName) :
    sentPair (importItem (T.browserFile folder f)) =
      (storedName (personName folder.name.text), T.file folder f) := by
  rw [importItem_browserFile, sentPair, browserFile]

/-- What the browser sends of a picked tree. -/
theorem mem_sentPairs {files : List BrowserFile} (h : T.Picked files) {pair : Pair} :
    pair ∈ sentPairs files ↔ ∃ folder ∈ T.folders, ∃ f ∈ folder.files, imgRe f.text = true ∧
      pair = (storedName (personName folder.name.text), T.file folder f) := by
  simp only [sentPairs, impFiles, List.map_map, List.mem_map, List.mem_filter, h _]
  constructor
  · rintro ⟨_, ⟨⟨folder, hfolder, f, hf, rfl⟩, himg⟩, rfl⟩
    exact ⟨folder, hfolder, f, hf, himg, sentPair_browserFile folder f⟩
  · rintro ⟨folder, hfolder, f, hf, himg, rfl⟩
    exact ⟨_, ⟨⟨folder, hfolder, f, hf, rfl⟩, himg⟩, sentPair_browserFile folder f⟩

theorem discover_returns {env : ImportEnv} (h : T.OnDisk env) :
    ∃ pairs, BulkImportService.discover env T.root = .ok pairs := by
  obtain ⟨entries, hread, hentries⟩ := h.root
  refine BulkImportService.discover_returns_iff.2 ⟨entries, hread, fun p hp => .inr ?_⟩
  obtain ⟨folder, hfolder, rfl⟩ := (hentries p).1 hp
  obtain ⟨hdir, files, hfiles, -⟩ := h.folder folder hfolder
  exact ⟨hdir, files, hfiles⟩

/-- What the server discovers of a tree on its disk. -/
theorem mem_discovered {env : ImportEnv} (h : T.OnDisk env) {pairs : List Pair}
    (hpairs : BulkImportService.discover env T.root = .ok pairs) {pair : Pair} :
    pair ∈ pairs ↔ ∃ folder ∈ T.folders, ∃ f ∈ folder.files,
      (imgRe f.text = true ∧ lower f.text ∉ BulkImportService.imageSuffixes) ∧
      pair = (folder.name.text, T.file folder f) := by
  obtain ⟨entries, hread, hentries⟩ := h.root
  rw [BulkImportService.mem_discover hread hpairs]
  constructor
  · rintro ⟨personDir, hmem, -, files, hfiles, hfile, hsuffix, hname⟩
    obtain ⟨folder, hfolder, rfl⟩ := (hentries personDir).1 hmem
    obtain ⟨-, files', hfiles', hlisted⟩ := h.folder folder hfolder
    obtain rfl := Except.ok.inj (hfiles.symm.trans hfiles')
    obtain ⟨f, hf, hpath⟩ := (hlisted _).1 hfile
    rw [BulkImportService.lower_suffix_mem_iff, hpath, file, Path.name_child] at hsuffix
    rw [dir, Path.name_child] at hname
    exact ⟨folder, hfolder, f, hf, hsuffix, Prod.ext hname.symm hpath⟩
  · rintro ⟨folder, hfolder, f, hf, himg, rfl⟩
    obtain ⟨hdir, files, hfiles, hlisted⟩ := h.folder folder hfolder
    refine ⟨T.dir folder, (hentries _).2 ⟨folder, hfolder, rfl⟩, hdir, files, hfiles,
      (hlisted _).2 ⟨f, hf, rfl⟩, ?_, Path.name_child _ _⟩
    rwa [BulkImportService.lower_suffix_mem_iff, file, Path.name_child]

end FolderTree

/-- The import of the browser and that of the server take the same files under the same names. -/
def ImportersAgree (env : ImportEnv) (T : FolderTree) (files : List BrowserFile) : Prop :=
  ∃ pairs, BulkImportService.discover env T.root = .ok pairs ∧
    ∀ pair, pair ∈ pairs ↔ pair ∈ sentPairs files

theorem importers_agree_iff {env : ImportEnv} {T : FolderTree} {files : List BrowserFile}
    (hdisk : T.OnDisk env) (hpicked : T.Picked files) : ImportersAgree env T files ↔
      ∀ folder ∈ T.folders, ∀ f ∈ folder.files, imgRe f.text = true →
        lower f.text ∉ BulkImportService.imageSuffixes ∧ Plain folder.name.text := by
  obtain ⟨pairs, hpairs⟩ := FolderTree.discover_returns hdisk
  have hagree : ImportersAgree env T files ↔ ∀ pair, pair ∈ pairs ↔ pair ∈ sentPairs files := by
    simp [ImportersAgree, hpairs]
  rw [hagree]
  constructor
  · intro h folder hfolder f hf himg
    have hsent := (FolderTree.mem_sentPairs hpicked).2 ⟨folder, hfolder, f, hf, himg, rfl⟩
    obtain ⟨folder', -, f', -, ⟨-, hbare⟩, heq⟩ :=
      (FolderTree.mem_discovered hdisk hpairs).1 ((h _).2 hsent)
    obtain ⟨hname, hpath⟩ := Prod.ext_iff.1 heq
    obtain ⟨hdir, hfile⟩ := FolderTree.file_inj.1 hpath
    rw [← hdir] at hname
    exact ⟨hfile ▸ hbare, (storedName_eq_self_iff folder.name.ne_empty).1 hname⟩
  · intro h pair
    rw [FolderTree.mem_discovered hdisk hpairs, FolderTree.mem_sentPairs hpicked]
    refine exists_congr fun folder => and_congr_right fun hfolder => exists_congr fun f =>
      and_congr_right fun hf => ?_
    rw [and_assoc]
    refine and_congr_right fun himg => ?_
    obtain ⟨hbare, hplain⟩ := h folder hfolder f hf himg
    rw [(storedName_eq_self_iff folder.name.ne_empty).2 hplain, and_iff_right hbare]

/-! ### A folder with one picture -/

def firstJpg : FileName := ⟨"1.jpg", by decide, by decide⟩

def photosWith (folder : FileName) : FolderTree where
  parent := ⟨[]⟩
  name := ⟨"photos", by decide, by decide⟩
  folders := [⟨folder, [firstJpg]⟩]

def pictureOf (folder : FileName) : BrowserFile :=
  (photosWith folder).browserFile ⟨folder, [firstJpg]⟩ firstJpg

def listed (folder : FileName) (p : Path) : List Path :=
  if p = (photosWith folder).root then [(photosWith folder).dir ⟨folder, [firstJpg]⟩]
  else if p = (photosWith folder).dir ⟨folder, [firstJpg]⟩ then [(pictureOf folder).path]
  else []

def diskWith (folder : FileName) : ImportEnv :=
  BulkImportService.photosEnv (listed folder) 32 fun _ => none

theorem listed_dir (folder : FileName) :
    listed folder ((photosWith folder).dir ⟨folder, [firstJpg]⟩) = [(pictureOf folder).path] := by
  have hne : (photosWith folder).dir ⟨folder, [firstJpg]⟩ ≠ (photosWith folder).root := fun h => by
    simpa [FolderTree.dir, Path.child] using congrArg (fun p => p.parts.length) h
  rw [listed, if_neg hne, if_pos rfl]

theorem onDisk_photosWith (folder : FileName) : (photosWith folder).OnDisk (diskWith folder) where
  root := by
    refine ⟨listed folder (photosWith folder).root, rfl, fun p => ?_⟩
    rw [listed, if_pos rfl]
    simp [photosWith]
  folder entry hentry := by
    obtain rfl := List.mem_singleton.1 hentry
    refine ⟨congrArg Except.ok (decide_eq_true ?_), _, rfl, fun p => ?_⟩
    · simp [listed_dir]
    · rw [listed_dir]
      simp [pictureOf, FolderTree.browserFile]

theorem picked_photosWith (folder : FileName) :
    (photosWith folder).Picked [pictureOf folder] := by
  intro f
  simp [photosWith, pictureOf]

def aliceFolder : FileName := ⟨"Alice", by decide, by decide⟩

def janeDoeFolder : FileName := ⟨"Jane_Doe", by decide, by decide⟩

theorem importers_agree_alice :
    ImportersAgree (diskWith aliceFolder) (photosWith aliceFolder) [pictureOf aliceFolder] := by
  refine (importers_agree_iff (onDisk_photosWith aliceFolder) (picked_photosWith aliceFolder)).2 ?_
  intro folder hfolder f hf _
  obtain rfl := List.mem_singleton.1 hfolder
  obtain rfl := List.mem_singleton.1 hf
  exact ⟨by decide, by decide, by decide, by decide⟩

/-- The browser enrols the pictures of `Jane_Doe` as `Jane Doe`, the server as `Jane_Doe`. -/
theorem jane_doe_split : (photosWith janeDoeFolder).OnDisk (diskWith janeDoeFolder) ∧
    (photosWith janeDoeFolder).Picked [pictureOf janeDoeFolder] ∧
    ¬ ImportersAgree (diskWith janeDoeFolder) (photosWith janeDoeFolder)
      [pictureOf janeDoeFolder] := by
  refine ⟨onDisk_photosWith janeDoeFolder, picked_photosWith janeDoeFolder, ?_⟩
  rintro ⟨pairs, hpairs, hagree⟩
  have hsent : ("Jane Doe", (pictureOf janeDoeFolder).path) ∈ sentPairs [pictureOf janeDoeFolder] :=
    List.mem_singleton.2 (by decide +kernel)
  obtain ⟨folder, hfolder, f, -, -, heq⟩ :=
    (FolderTree.mem_discovered (onDisk_photosWith janeDoeFolder) hpairs).1 ((hagree _).2 hsent)
  obtain rfl := List.mem_singleton.1 hfolder
  have hname : "Jane Doe" = "Jane_Doe" := (Prod.ext_iff.1 heq).1
  exact absurd hname (by decide)

end FaceRecognition.Services
