/-
Paths from the root.

A path from the root is cleaned to a path from the root, whose parts are
names and nothing else: none is empty, none is `.` or `..`
(`cleaned_clean`). There is nothing left to clean in such a path
(`Cleaned.clean_eq`). So what a path becomes when it is taken from a
directory, which is a path from the root itself, is one too, and taking it
again from any other directory leaves it alone (`relativeTo_relativeTo`).
-/
import LispShell.Proofs.Text.Split
import LispShell.Settings

namespace LispShell

namespace Path

/-- A part of a path that is the name of something. -/
structure IsName (part : String) : Prop where
  ne_empty : part ≠ ""
  ne_here : part ≠ "."
  ne_up : part ≠ ".."
  no_slash : '/' ∉ part.toList

/-- A path from the root that only names are left of. -/
def Cleaned (p : String) : Prop :=
  ∃ names, (∀ name ∈ names, IsName name) ∧ p = "/" ++ Text.join "/" names

-- ================================================================== the root

theorem isAbsolute_slash (p : String) : isAbsolute ("/" ++ p) = true := by
  simp [isAbsolute]

theorem isAbsolute_append {p : String} (h : isAbsolute p = true) (q : String) :
    isAbsolute (p ++ q) = true := by
  rw [isAbsolute, beq_iff_eq] at h ⊢
  rw [String.toList_append, List.head?_append, h, Option.some_or]

/-- An absolute path is not empty. -/
theorem ne_empty_of_isAbsolute {p : String} (h : isAbsolute p = true) : p ≠ "" := by
  rintro rfl
  cases h

/-- A cleaned path starts at the root. -/
theorem Cleaned.isAbsolute {p : String} (h : Cleaned p) : isAbsolute p = true := by
  obtain ⟨names, -, rfl⟩ := h
  exact isAbsolute_slash _

-- ================================================================== cleaning

/-- From the root, only names are kept: a `..` takes one away or is
dropped. -/
theorem isName_cleanPart {before : List String} (hbefore : ∀ name ∈ before, IsName name)
    {part : String} (hpart : '/' ∉ part.toList) :
    ∀ name ∈ cleanPart true before part, IsName name := by
  unfold cleanPart
  split
  · exact hbefore
  · next hkeep =>
    have hne : part ≠ "" ∧ part ≠ "." := by simpa using hkeep
    split
    · next hup =>
      cases before with
      | nil => simp
      | cons last rest =>
        obtain ⟨hlast, hrest⟩ := List.forall_mem_cons.1 hbefore
        have hdown : ¬(last == "..") = true := by simpa using hlast.ne_up
        simpa only [if_neg hdown] using hrest
    · next hup =>
      have hname : IsName part := ⟨hne.1, hne.2, by simpa using hup, hpart⟩
      exact List.forall_mem_cons.2 ⟨hname, hbefore⟩

/-- Cleaning leaves only names. -/
theorem isName_foldl {parts before : List String} (hparts : ∀ part ∈ parts, '/' ∉ part.toList)
    (hbefore : ∀ name ∈ before, IsName name) :
    ∀ name ∈ parts.foldl (cleanPart true) before, IsName name := by
  induction parts generalizing before with
  | nil => exact hbefore
  | cons part rest ih =>
    obtain ⟨hpart, hrest⟩ := List.forall_mem_cons.1 hparts
    exact ih hrest (isName_cleanPart hbefore hpart)

/-- A path from the root is cleaned to names. -/
theorem cleaned_clean {p : String} (h : isAbsolute p = true) : Cleaned (clean p) := by
  refine ⟨((parts p).foldl (cleanPart true) []).reverse, fun name hname => ?_, ?_⟩
  · have hparts : ∀ part ∈ parts p, '/' ∉ part.toList := fun part hpart =>
      Text.not_mem_of_mem_split '/' hpart
    exact isName_foldl hparts (by simp) name (List.mem_reverse.1 hname)
  · simp only [clean, h, if_true]

/-- Names are kept as they are. -/
theorem foldl_cleanPart_names {names : List String} (h : ∀ name ∈ names, IsName name)
    (before : List String) :
    names.foldl (cleanPart true) before = names.reverse ++ before := by
  induction names generalizing before with
  | nil => rfl
  | cons name rest ih =>
    obtain ⟨hname, hrest⟩ := List.forall_mem_cons.1 h
    have hpush : cleanPart true before name = name :: before := by
      simp [cleanPart, hname.ne_empty, hname.ne_here, hname.ne_up]
    rw [List.foldl_cons, hpush, ih hrest]
    simp

/-- The parts of a path of names: the empty one before the root, and the
names. -/
theorem foldl_parts_names {names : List String} (h : ∀ name ∈ names, IsName name) :
    (parts ("/" ++ Text.join "/" names)).foldl (cleanPart true) [] = names.reverse := by
  have hslash : "/" ++ Text.join "/" names
      = "" ++ String.singleton '/' ++ Text.join "/" names := by
    rw [String.empty_append]
    rfl
  have hsplit : parts ("/" ++ Text.join "/" names) = "" :: parts (Text.join "/" names) := by
    rw [hslash]
    exact Text.split_append '/' (by simp) _
  rw [hsplit]
  cases names with
  | nil => rfl
  | cons name rest =>
    have hparts : parts (Text.join "/" (name :: rest)) = name :: rest :=
      Text.split_join '/' (List.cons_ne_nil name rest) fun part hpart => (h part hpart).no_slash
    rw [hparts, List.foldl_cons]
    show List.foldl (cleanPart true) [] (name :: rest) = _
    rw [foldl_cleanPart_names h, List.append_nil]

/-- There is nothing left to clean. -/
theorem Cleaned.clean_eq {p : String} (h : Cleaned p) : clean p = p := by
  obtain ⟨names, hnames, rfl⟩ := h
  simp only [clean, isAbsolute_slash, if_true, foldl_parts_names hnames, List.reverse_reverse]

-- =============================================================== directories

/-- A path below an absolute one comes out clean. -/
theorem cleaned_join {directory : String} (h : isAbsolute directory = true) (p : String) :
    Cleaned (join directory p) := by
  have hne : ¬(directory == "") = true := by simpa using ne_empty_of_isAbsolute h
  unfold join
  rw [if_neg hne]
  split
  · exact cleaned_clean h
  · exact cleaned_clean (isAbsolute_append (isAbsolute_append h "/") p)

/-- So does a path seen from an absolute one. -/
theorem cleaned_absolute {directory : String} (h : isAbsolute directory = true) (p : String) :
    Cleaned (absolute directory p) := by
  unfold absolute
  split
  · next hp => exact cleaned_clean hp
  · exact cleaned_join h p

/-- So does the directory that something is in. -/
theorem cleaned_parent {p : String} (h : isAbsolute p = true) : Cleaned (parent p) := by
  simp only [parent, h, if_true]
  exact cleaned_clean (isAbsolute_slash _)

end Path

-- ============================================================ settings files

namespace Settings

theorem relativeTo_of_absolute {p : String} (h : Path.isAbsolute p = true) (directory : String) :
    relativeTo directory p = p :=
  if_pos h

/-- A path from an absolute directory on is absolute. -/
theorem isAbsolute_relativeTo {directory : String} (h : Path.isAbsolute directory = true)
    (p : String) : Path.isAbsolute (relativeTo directory p) = true := by
  unfold relativeTo
  split
  · next hp => exact hp
  · exact (Path.cleaned_join h p).isAbsolute

/-- What was taken from a directory is not taken from another one. -/
theorem relativeTo_relativeTo {directory : String} (h : Path.isAbsolute directory = true)
    (other p : String) : relativeTo other (relativeTo directory p) = relativeTo directory p :=
  relativeTo_of_absolute (isAbsolute_relativeTo h p) other

end Settings

end LispShell
