/-
Loading settings from a file.

A file that can be opened and decoded gives settings exactly if they are
allowed, and otherwise everything that is wrong with them, in a fixed
order (`check_eq`). Every file and search path in them is a path from the
root by then: what was one is kept, and the rest is taken from the
directory of the file (`Placed`).

Which paths are written is said by the document (`ListedAt`). They are the
texts that are not blank, but for a list with the tag of null: that one
keeps its blanks, and then an empty text stands for the directory of the
file itself (`load_null_tagged`).
-/
import LispShell.Proofs.Paths
import LispShell.Proofs.Settings.Lists
import Mathlib.Data.List.Forall2

namespace LispShell.Settings

open Yaml Decode

-- ================================================================= checking

/-- Whether there is nothing at a path. -/
def isMissing (disk : Disk) (directory p : String) : Bool :=
  match disk.stat directory p with
  | .error .missing => true
  | _ => false

/-- What is said about a file that is missing, and its index. -/
def missingIssue (entry : String × Nat) : String :=
  "preload[" ++ Nat.repr entry.2 ++ "]: " ++ entry.1 ++ " does not exist"

/-- Settings that nothing is wrong with. -/
structure Allowed (s : Surroundings) (disk : Disk) (x : Settings) : Prop where
  prompt : x.prompt ≠ ""
  level : (Log.parse? x.level).isSome = true
  preload : ∀ p ∈ x.preload, disk.stat s.directory p ≠ .error .missing

/-- All that is wrong with settings, in order: the prompt, the level, and
the files that are missing. -/
def wrongs (s : Surroundings) (disk : Disk) (x : Settings) : List String :=
  (if x.prompt = "" then ["prompt must not be empty"] else [])
  ++ (if (Log.parse? x.level).isSome then [] else
      ["log.level " ++ Text.quote x.level ++ " is not one of debug, info, warn, error"])
  ++ (x.preload.zipIdx.filter fun entry => isMissing disk s.directory entry.1).map missingIssue

/-- A file is missing if the disk says so. -/
theorem isMissing_iff (disk : Disk) (directory p : String) :
    isMissing disk directory p = true ↔ disk.stat directory p = .error .missing := by
  unfold isMissing
  split
  · next h => exact iff_of_true rfl h
  · next h => exact iff_of_false nofun h

/-- What is complained about is a file that is missing. -/
theorem preloadIssue_eq (disk : Disk) (directory : String) (index : Nat) (p : String) :
    preloadIssue disk directory index p
      = if isMissing disk directory p then [missingIssue (p, index)] else [] := by
  by_cases h : disk.stat directory p = .error .missing
  · rw [if_pos ((isMissing_iff disk directory p).2 h), preloadIssue, h]
    rfl
  · rw [if_neg (mt (isMissing_iff disk directory p).1 h), preloadIssue]
    split
    · next hmissing => exact absurd hmissing h
    · rfl

/-- Each missing file is reported with its own index. -/
theorem preloadIssues_eq (disk : Disk) (directory : String) (index : Nat) (paths : List String) :
    preloadIssues disk directory index paths
      = ((paths.zipIdx index).filter fun entry => isMissing disk directory entry.1).map
        missingIssue := by
  induction paths generalizing index with
  | nil => rfl
  | cons p rest ih =>
    rw [preloadIssues, ih, preloadIssue_eq, List.zipIdx_cons, List.filter_cons]
    split <;> rfl

/-- The complaints are those about the four fields, in their order. -/
theorem issues_eq (s : Surroundings) (disk : Disk) (x : Settings) :
    issues s disk x = wrongs s disk x := by
  simp only [issues, wrongs, preloadIssues_eq, beq_iff_eq]
  cases Log.parse? x.level <;> rfl

/-- There are none if every field is allowed. -/
theorem wrongs_eq_nil_iff (s : Surroundings) (disk : Disk) (x : Settings) :
    wrongs s disk x = [] ↔ Allowed s disk x := by
  have hpreload : (x.preload.zipIdx.filter fun entry => isMissing disk s.directory entry.1).map
      missingIssue = [] ↔ ∀ p ∈ x.preload, disk.stat s.directory p ≠ .error .missing := by
    rw [List.map_eq_nil_iff, List.filter_eq_nil_iff]
    constructor
    · intro h p hp hmissing
      obtain ⟨i, hi⟩ := List.mem_iff_getElem?.1 hp
      have hentry : (p, i) ∈ x.preload.zipIdx := List.mk_mem_zipIdx_iff_getElem?.2 hi
      exact h (p, i) hentry ((isMissing_iff disk s.directory p).2 hmissing)
    · intro h entry hentry hmissing
      have hp : entry.1 ∈ x.preload := List.fst_mem_of_mem_zipIdx hentry
      exact h entry.1 hp ((isMissing_iff disk s.directory entry.1).1 hmissing)
  rw [wrongs, List.append_eq_nil_iff, List.append_eq_nil_iff, hpreload]
  constructor
  · rintro ⟨⟨hprompt, hlevel⟩, hpreload⟩
    refine ⟨fun h => ?_, ?_, hpreload⟩
    · rw [if_pos h] at hprompt
      cases hprompt
    · by_contra h
      rw [if_neg h] at hlevel
      cases hlevel
  · intro h
    exact ⟨⟨if_neg h.prompt, if_pos h.level⟩, h.preload⟩

/-- Settings are refused for all that is wrong with them. -/
theorem check_eq (s : Surroundings) (disk : Disk) (x : Settings) :
    (Allowed s disk x → check s disk x = .ok x)
      ∧ (¬Allowed s disk x → check s disk x = .error (.invalid x.path (wrongs s disk x))) := by
  unfold check
  rw [issues_eq, ← wrongs_eq_nil_iff]
  constructor
  · intro h
    rw [h]
  · intro h
    split
    · next hnil => exact absurd hnil h
    · rfl

-- ==================================================================== paths

/-- What becomes of the paths in a settings file that is in a directory. -/
structure Placed (directory : String) (texts paths : List String) : Prop where
  /-- Each text in its place: one from the root is kept, any other is taken
  from the directory and cleaned, with nothing left to clean. -/
  each : List.Forall₂ (fun p q => (Path.isAbsolute p = true → q = p)
    ∧ (Path.isAbsolute p = false →
      q = Path.join directory p ∧ Path.Cleaned q ∧ Path.clean q = q)) texts paths
  /-- All are paths from the root. -/
  isAbsolute : ∀ p ∈ paths, Path.isAbsolute p = true
  /-- Placing them again changes nothing. -/
  again : ∀ other, paths.map (relativeTo other) = paths

/-- Paths are placed one by one. -/
theorem placed_map {directory : String} (h : Path.isAbsolute directory = true)
    (texts : List String) : Placed directory texts (texts.map (relativeTo directory)) where
  each := by
    rw [List.forall₂_map_right_iff, List.forall₂_same]
    intro p _
    refine ⟨fun hp => relativeTo_of_absolute hp directory, fun hp => ?_⟩
    have hjoin : relativeTo directory p = Path.join directory p := by
      rw [relativeTo, hp]
      rfl
    have hcleaned := Path.cleaned_join h p
    rw [hjoin]
    exact ⟨rfl, hcleaned, hcleaned.clean_eq⟩
  isAbsolute := by
    intro q hq
    obtain ⟨p, -, rfl⟩ := List.mem_map.1 hq
    exact isAbsolute_relativeTo h p
  again := by
    intro other
    rw [List.map_map]
    exact List.map_congr_left fun p _ => relativeTo_relativeTo h other p

-- ================================================================== loading

/-- A document is decoded if there is nothing to complain about. -/
theorem ofDocument_cleanly {d : Document} {x v : Settings}
    (h : record.ofDocument d x = .ok (v, [])) :
    ∃ s s', Cleanly (record.decode d d.root x) s v s' := by
  have hwhole : ∃ s',
      Cleanly (do visit; record.decode d d.root x : Decode Settings) .start v s' := by
    unfold Record.ofDocument at h
    dsimp only at h
    cases hrun : (do visit; record.decode d d.root x : Decode Settings) Decoding.start with
    | error text =>
      rw [hrun] at h
      cases h
    | ok p =>
      rw [hrun] at h
      simp only [Except.map, Except.ok.injEq, Prod.mk.injEq] at h
      obtain ⟨rfl, hcomplaints⟩ := h
      exact ⟨p.2, hrun, hcomplaints⟩
  obtain ⟨s', hwhole⟩ := hwhole
  obtain ⟨u, s₁, -, h⟩ := hwhole.bind grows_visit fun _ =>
    Record.grows_decode (grows_record d) d.root x
  exact ⟨s₁, s', h⟩

/-- What the text of a file has to do with the settings decoded from
it. -/
theorem decode_cases {path text : String} {x v : Settings} (h : decode path text x = .ok v) :
    (Document.ofText text = .ok none ∧ v = x)
      ∨ ∃ d, Document.ofText text = .ok (some d)
        ∧ ∃ s s', Cleanly (record.decode d d.root x) s v s' := by
  unfold decode at h
  split at h
  · cases h
  · next hdocument =>
    cases h
    exact .inl ⟨hdocument, rfl⟩
  · next d hdocument =>
    refine .inr ⟨d, hdocument, ?_⟩
    split at h
    · cases h
    · next hof =>
      cases h
      exact ofDocument_cleanly hof
    · cases h

/-- Loading a file that can be read and decoded is placing its paths and
checking what comes of it. -/
theorem load_eq {s : Surroundings} {disk : Disk} {file text : String} {x : Settings}
    (hfile : file ≠ "") (hread : readText disk (Path.absolute s.directory file) = .ok text)
    (hdecode : decode (Path.absolute s.directory file) text (default s) = .ok x) :
    load s disk file = check s disk (placePaths (Path.absolute s.directory file) x) := by
  have hnot : ¬(file == "") = true := by simpa using hfile
  have hwritten : written s disk file = .ok (placePaths (Path.absolute s.directory file) x) := by
    simp only [written, if_neg hnot, hread, hdecode, bind, Except.bind, pure, Except.pure]
  simp only [load, hwritten, if_neg hnot, bind, Except.bind]

/-- Loading checks settings completely and places every path. -/
theorem load_validates (s : Surroundings) (disk : Disk) (file path text : String) (x : Settings)
    (hdirectory : Path.isAbsolute s.directory = true) (hfile : file ≠ "")
    (hpath : path = Path.absolute s.directory file) (hread : readText disk path = .ok text)
    (hdecode : decode path text (default s) = .ok x) :
    (load s disk file = .ok (placePaths path x) ↔ Allowed s disk (placePaths path x))
    ∧ (¬Allowed s disk (placePaths path x) → load s disk file
      = .error (.invalid path (wrongs s disk (placePaths path x))))
    ∧ Placed (Path.parent path) x.preload (placePaths path x).preload
    ∧ Placed (Path.parent path) x.wasmPaths (placePaths path x).wasmPaths
    ∧ (Document.ofText text = .ok none → x.preload = [] ∧ x.wasmPaths = [])
    ∧ ∀ d, Document.ofText text = .ok (some d) →
      ListedAt d ["preload"] x.preload ∧ ListedAt d ["modules", "wasm_paths"] x.wasmPaths := by
  subst hpath
  have hroot := (Path.cleaned_absolute hdirectory file).isAbsolute
  have hparent := (Path.cleaned_parent hroot).isAbsolute
  have hload := load_eq hfile hread hdecode
  obtain ⟨hallowed, hrefused⟩ :=
    check_eq s disk (placePaths (Path.absolute s.directory file) x)
  refine ⟨⟨fun hok => ?_, fun h => hload.trans (hallowed h)⟩, fun h => hload.trans (hrefused h),
    placed_map hparent x.preload, placed_map hparent x.wasmPaths, fun hnone => ?_, fun d hd => ?_⟩
  · by_contra h
    cases (hload.trans (hrefused h)).symm.trans hok
  · rcases decode_cases hdecode with ⟨-, rfl⟩ | ⟨d, hd, -⟩
    · exact ⟨rfl, rfl⟩
    · cases hnone.symm.trans hd
  · rcases decode_cases hdecode with ⟨hnone, -⟩ | ⟨d', hd', s₁, s₂, hclean⟩
    · cases hnone.symm.trans hd
    · cases hd.symm.trans hd'
      exact ⟨preload_of_document rfl hclean, wasmPaths_of_document rfl hclean⟩

-- ============================================================ two documents

/-- A shell at work in `/work`. -/
def atWork : Surroundings where
  environment := [("HOME", "/work")]
  directory := "/work"
  arguments := []
  hostName := "localhost"

/-- A disk with a settings file and a program next to it. -/
def diskAtWork (text : String) : Disk :=
  [(["work"], .directory), (["work", "c.yml"], .file text), (["work", "boot.lisp"], .file "")]

theorem eq_ok_of_toOption {ε α : Type} {r : Except ε α} {a : α} (h : r.toOption = some a) :
    r = .ok a := by
  cases r with
  | error e => cases h
  | ok b =>
    cases h
    rfl

/-- A list with a blank text in it, and a program that is not there. -/
def listing : String :=
  "prompt: ok\npreload: [boot.lisp, '', ' /lib/x.lisp ']\nmodules: \x7bwasm_paths: ../lib\x7d\n"

/-- The settings that are written there. -/
def listed : Settings :=
  ⟨"ok", "/work/.parens_history", ["boot.lisp", "/lib/x.lisp"], ["../lib"], true, "warn", ""⟩

/-- A listing whose second file is missing. -/
theorem load_validates_listing :
    decode "/work/c.yml" listing (default atWork) = .ok listed
    ∧ load atWork (diskAtWork listing) "c.yml"
      = .error (.invalid "/work/c.yml" ["preload[1]: /lib/x.lisp does not exist"])
    ∧ (placePaths "/work/c.yml" listed).wasmPaths = ["/lib"] := by
  have hread : readText (diskAtWork listing) "/work/c.yml" = .ok listing :=
    eq_ok_of_toOption (by decide +kernel)
  have hdecode : decode "/work/c.yml" listing (default atWork) = .ok listed :=
    eq_ok_of_toOption (by decide +kernel)
  obtain ⟨-, hrefused, -⟩ := load_validates atWork (diskAtWork listing) "c.yml" "/work/c.yml"
    listing listed (by decide +kernel) (by decide) (by decide +kernel) hread hdecode
  have hmissing : (diskAtWork listing).stat "/work" "/lib/x.lisp" = .error .missing :=
    (isMissing_iff _ _ _).1 (by decide +kernel)
  have hnot : ¬Allowed atWork (diskAtWork listing) (placePaths "/work/c.yml" listed) :=
    fun h => h.preload "/lib/x.lisp" (by decide +kernel) hmissing
  have hwrongs : wrongs atWork (diskAtWork listing) (placePaths "/work/c.yml" listed)
      = ["preload[1]: /lib/x.lisp does not exist"] := by decide +kernel
  exact ⟨hdecode, hwrongs ▸ hrefused hnot, by decide +kernel⟩

/-- A list with the tag of null. -/
def nullTagged : String :=
  "modules: \x7bwasm_paths: !!null [a, \" b \", \"\"]\x7d\n"

/-- The blanks in it are kept, and the empty text becomes a path. -/
theorem load_null_tagged :
    (∃ x, load atWork (diskAtWork nullTagged) "c.yml" = .ok x
      ∧ x.wasmPaths = ["/work/a", "/work/ b ", "/work"])
    ∧ (kept ["a", " b ", ""]).map (relativeTo "/work") = ["/work/a", "/work/b"] := by
  have hload : load atWork (diskAtWork nullTagged) "c.yml" = .ok ⟨"pl> ", "/work/.parens_history",
      [], ["/work/a", "/work/ b ", "/work"], true, "warn", "/work/c.yml"⟩ :=
    eq_ok_of_toOption (by decide +kernel)
  exact ⟨⟨_, hload, rfl⟩, by decide +kernel⟩

end LispShell.Settings
