/-
What a frame looks like from inside: a map from names to values.

Evaluation sees a frame only through `lookup`, and through `symbols`,
which lists the names that have a value. How the bindings are spread over
the frames around it does not show:

- binding a name in a frame changes the value of that name there and no
  other (`lookup_bind`), although frames further out may bind it too;
- the symbols are the names with a value, in increasing order, so equal
  look-ups give equal symbols (`symbols_eq_of_lookup`);
- an empty frame inside another one shows what that one shows
  (`lookup_push`), and so does a copy (`copy_spec`).

A path goes down in the store, so frames that are added do not change it
(`path_append`), and neither do bindings (`path_bind`). A copy is made of
new frames only, so what is bound in it is out of sight of the frames
that were there.
-/
import LispShell.Frame
import Mathlib.Data.List.Sort

namespace LispShell

-- ====================================================== bindings of one frame

/-- The first binding of a name counts. -/
theorem Bindings.get?_cons (key n : String) (w : Value) (rest : Bindings) :
    Bindings.get? key ((n, w) :: rest) = if key = n then some w else rest.get? key := by
  unfold Bindings.get?
  rw [List.lookup_cons]
  by_cases h : key = n
  · rw [if_pos h, beq_iff_eq.2 h]
  · rw [if_neg h, beq_false_of_ne h]

/-- A new binding is found under its name, and the others as before. -/
theorem Bindings.get?_insert (name key : String) (v : Value) (b : Bindings) :
    Bindings.get? key (b.insert name v) = if key = name then some v else b.get? key := by
  induction b with
  | nil => exact get?_cons key name v []
  | cons entry rest ih =>
    obtain ⟨n, w⟩ := entry
    rw [insert, get?_cons]
    by_cases hn : n = name
    · rw [if_pos (beq_iff_eq.2 hn), get?_cons, hn]
      by_cases h : key = name
      · rw [if_pos h, if_pos h]
      · rw [if_neg h, if_neg h, if_neg h]
    · rw [if_neg (by simpa using hn), get?_cons, ih]
      by_cases h : key = name
      · rw [if_pos h, if_pos h, if_neg fun heq => hn (heq.symm.trans h)]
      · rw [if_neg h, if_neg h]

/-- The names are those that are bound. -/
theorem Bindings.mem_names {key : String} {b : Bindings} :
    key ∈ b.names ↔ (b.get? key).isSome = true := by
  unfold Bindings.names Bindings.get?
  rw [List.lookup_isSome_iff, List.mem_map]
  constructor
  · rintro ⟨entry, hentry, rfl⟩
    exact ⟨entry, hentry, beq_self_eq_true _⟩
  · rintro ⟨entry, hentry, hkey⟩
    exact ⟨entry, hentry, (beq_iff_eq.1 hkey).symm⟩

-- ====================================================== sorted texts

/-- Dropping repeats drops no name. -/
theorem mem_dropRepeats {x : String} (xs : List String) : x ∈ dropRepeats xs ↔ x ∈ xs := by
  fun_induction dropRepeats xs with
  | case1 a b rest h ih =>
    rw [ih, beq_iff_eq.1 h]
    simp
  | case2 a b rest _ ih => rw [List.mem_cons, ih, ← List.mem_cons]
  | case3 short _ => rfl

/-- Without repeats an increasing list is strictly so. -/
theorem pairwise_dropRepeats {xs : List String} (h : xs.Pairwise (· ≤ ·)) :
    (dropRepeats xs).Pairwise (· < ·) := by
  fun_induction dropRepeats xs with
  | case1 a b rest _ ih => exact ih h.tail
  | case2 a b rest hab ih =>
    have hne : a ≠ b := by simpa using hab
    refine List.pairwise_cons.2 ⟨fun x hx => ?_, ih h.tail⟩
    have hlt : a < b := String.not_le.1 fun hle =>
      hne (String.le_antisymm (List.rel_of_pairwise_cons h List.mem_cons_self) hle)
    rcases List.mem_cons.1 ((mem_dropRepeats _).1 hx) with rfl | hx
    · exact hlt
    · exact Std.lt_of_lt_of_le hlt (List.rel_of_pairwise_cons h.tail hx)
  | case3 short hshort =>
    match short with
    | [] => exact .nil
    | [a] => exact List.pairwise_singleton _ a
    | a :: b :: rest => exact absurd rfl (hshort a b rest)

/-- Sorting neither adds nor drops a text. -/
theorem mem_sortedTexts {x : String} {xs : List String} : x ∈ sortedTexts xs ↔ x ∈ xs := by
  unfold sortedTexts
  rw [mem_dropRepeats, List.mem_mergeSort]

/-- What is sorted ascends. -/
theorem pairwise_sortedTexts (xs : List String) : (sortedTexts xs).Pairwise (· < ·) := by
  have htrans : ∀ a b c : String, decide (a ≤ b) = true → decide (b ≤ c) = true →
      decide (a ≤ c) = true := by
    intro a b c hab hbc
    exact decide_eq_true (String.le_trans (of_decide_eq_true hab) (of_decide_eq_true hbc))
  have htotal : ∀ a b : String, (decide (a ≤ b) || decide (b ≤ a)) = true := by
    intro a b
    simpa using String.le_total a b
  apply pairwise_dropRepeats
  simpa only [decide_eq_true_eq] using List.pairwise_mergeSort htrans htotal xs

/-- Sorted texts are determined by which texts there are. -/
theorem sortedTexts_congr {xs ys : List String} (h : ∀ x, x ∈ xs ↔ x ∈ ys) :
    sortedTexts xs = sortedTexts ys := by
  refine (pairwise_sortedTexts xs).eq_of_mem_iff (pairwise_sortedTexts ys) fun x => ?_
  rw [mem_sortedTexts, mem_sortedTexts, h x]

namespace Frames

-- ====================================================== paths

/-- The frame around a frame. -/
def outer? (fs : Frames) (id : FrameId) : Option FrameId :=
  (fs[id]?).bind (·.outer)

/-- The path of a root is the root. -/
theorem path_of_root {fs : Frames} {id : FrameId} (h : fs.outer? id = none) :
    fs.path id = [id] := by
  rw [path.eq_def]
  unfold outer? at h
  rw [h]

/-- The path of another frame goes on with that of the outer one. -/
theorem path_of_outer {fs : Frames} {id outer : FrameId} (h : fs.outer? id = some outer)
    (hlt : outer < id) : fs.path id = id :: fs.path outer := by
  rw [path.eq_def]
  unfold outer? at h
  rw [h]
  exact if_pos hlt

/-- A path is the frame itself, or goes on with the path of the frame
around it, which is further down. -/
theorem path_cases (fs : Frames) (id : FrameId) :
    fs.path id = [id] ∨ ∃ outer, fs.outer? id = some outer ∧ outer < id
      ∧ fs.path id = id :: fs.path outer := by
  cases h : fs.outer? id with
  | none => exact .inl (path_of_root h)
  | some outer =>
    by_cases hlt : outer < id
    · exact .inr ⟨outer, rfl, hlt, path_of_outer h hlt⟩
    · left
      unfold outer? at h
      rw [path.eq_def, h]
      exact if_neg hlt

/-- A path starts at its frame. -/
theorem self_mem_path (fs : Frames) (id : FrameId) : id ∈ fs.path id := by
  rcases path_cases fs id with h | ⟨outer, -, -, h⟩
  · rw [h]
    exact List.mem_singleton_self id
  · rw [h]
    exact List.mem_cons_self

/-- It only goes down. -/
theorem le_of_mem_path {fs : Frames} {id g : FrameId} (hg : g ∈ fs.path id) : g ≤ id := by
  induction id using Nat.strongRecOn with
  | ind id ih =>
    rcases path_cases fs id with h | ⟨outer, -, hlt, h⟩
    · rw [h] at hg
      exact Nat.le_of_eq (List.mem_singleton.1 hg)
    · rw [h] at hg
      rcases List.mem_cons.1 hg with rfl | hg
      · exact Nat.le_refl _
      · exact Nat.le_trans (ih outer hlt hg) (Nat.le_of_lt hlt)

/-- A path depends only on what is around the frames up to it. -/
theorem path_congr {fs fs' : Frames} {id : FrameId}
    (h : ∀ g, g ≤ id → fs'.outer? g = fs.outer? g) : fs'.path id = fs.path id := by
  induction id using Nat.strongRecOn with
  | ind id ih =>
    have hself : (fs'[id]?).bind (·.outer) = (fs[id]?).bind (·.outer) := h id (Nat.le_refl id)
    rw [path.eq_def, path.eq_def fs, hself]
    cases (fs[id]?).bind (·.outer) with
    | none => rfl
    | some outer =>
      dsimp only
      by_cases hlt : outer < id
      · rw [if_pos hlt, if_pos hlt,
          ih outer hlt fun g hg => h g (Nat.le_trans hg (Nat.le_of_lt hlt))]
      · rw [if_neg hlt, if_neg hlt]

/-- A frame shows the same if the path and the bindings on it are the
same. -/
theorem lookup_congr {fs fs' : Frames} {id : FrameId} (hpath : fs'.path id = fs.path id)
    (h : ∀ g ∈ fs.path id, fs'.bindings g = fs.bindings g) (name : String) :
    fs'.lookup id name = fs.lookup id name := by
  unfold lookup
  rw [hpath]
  generalize fs.path id = ids at h
  induction ids with
  | nil => rfl
  | cons g rest ih =>
    rw [List.findSome?_cons, List.findSome?_cons, h g List.mem_cons_self,
      ih fun g hg => h g (List.mem_cons_of_mem _ hg)]

/-- In a root there is only its own binding. -/
theorem lookup_of_root {fs : Frames} {id : FrameId} (h : fs.outer? id = none) (name : String) :
    fs.lookup id name = (fs.bindings id).get? name := by
  unfold lookup
  rw [path_of_root h]
  simp

/-- Elsewhere a name is looked up in the frame and then further out. -/
theorem lookup_of_outer {fs : Frames} {id outer : FrameId} (h : fs.outer? id = some outer)
    (hlt : outer < id) (name : String) :
    fs.lookup id name = ((fs.bindings id).get? name).or (fs.lookup outer name) := by
  unfold lookup
  rw [path_of_outer h hlt, List.findSome?_cons]
  cases (fs.bindings id).get? name with
  | none => rfl
  | some v => rfl

-- ====================================================== binding

theorem length_bind (fs : Frames) (id : FrameId) (name : String) (v : Value) :
    (fs.bind id name v).length = fs.length :=
  List.length_modify ..

theorem outer?_bind (fs : Frames) (id : FrameId) (name : String) (v : Value) (g : FrameId) :
    (fs.bind id name v).outer? g = fs.outer? g := by
  unfold outer? bind
  rw [List.getElem?_modify]
  cases fs[g]? with
  | none => rfl
  | some f =>
    by_cases h : id = g
    · simp [h]
    · simp [h]

theorem path_bind (fs : Frames) (id : FrameId) (name : String) (v : Value) (g : FrameId) :
    (fs.bind id name v).path g = fs.path g :=
  path_congr fun g _ => outer?_bind fs id name v g

/-- A binding leaves the other frames. -/
theorem bindings_bind_ne (fs : Frames) {id g : FrameId} (name : String) (v : Value)
    (h : g ≠ id) : (fs.bind id name v).bindings g = fs.bindings g := by
  unfold bindings bind
  rw [List.getElem?_modify_ne _ _ (Ne.symm h)]

/-- It is added to its own. -/
theorem bindings_bind_self {fs : Frames} {id : FrameId} (name : String) (v : Value)
    (h : id < fs.length) :
    (fs.bind id name v).bindings id = (fs.bindings id).insert name v := by
  unfold bindings bind
  rw [List.getElem?_modify_eq, List.getElem?_eq_getElem h]
  rfl

/-- A frame whose path does not go through the frame that is written does
not change. -/
theorem lookup_bind_of_not_mem {fs : Frames} {id g : FrameId} (h : id ∉ fs.path g)
    (name : String) (v : Value) (key : String) :
    (fs.bind id name v).lookup g key = fs.lookup g key := by
  refine lookup_congr (path_bind fs id name v g) (fun f hf => ?_) key
  refine bindings_bind_ne fs name v ?_
  rintro rfl
  exact h hf

/-- In the frame that is written, the name has the new value and all others
have theirs. -/
theorem lookup_bind {fs : Frames} {id : FrameId} (h : id < fs.length) (name : String)
    (v : Value) (key : String) :
    (fs.bind id name v).lookup id key = if key = name then some v else fs.lookup id key := by
  have hself := bindings_bind_self name v h
  rcases path_cases fs id with hpath | ⟨outer, houter, hlt, -⟩
  · unfold lookup
    rw [path_bind, hpath]
    simp only [List.findSome?_cons, List.findSome?_nil, hself, Bindings.get?_insert]
    by_cases hkey : key = name
    · simp [hkey]
    · simp [hkey]
  · have hbelow : id ∉ fs.path outer := fun hmem =>
      absurd (le_of_mem_path hmem) (Nat.not_le.2 hlt)
    rw [lookup_of_outer ((outer?_bind fs id name v id).trans houter) hlt,
      lookup_of_outer houter hlt, hself, Bindings.get?_insert,
      lookup_bind_of_not_mem hbelow]
    by_cases hkey : key = name
    · simp [hkey]
    · simp [hkey]

-- ====================================================== symbols

/-- The symbols are the names that are found. -/
theorem mem_symbols {fs : Frames} {id : FrameId} {name : String} :
    name ∈ fs.symbols id ↔ (fs.lookup id name).isSome = true := by
  unfold symbols lookup
  rw [mem_sortedTexts, List.mem_flatMap, List.findSome?_isSome_iff]
  constructor
  · rintro ⟨f, hf, hname⟩
    exact ⟨f, hf, Bindings.mem_names.1 hname⟩
  · rintro ⟨f, hf, hname⟩
    exact ⟨f, hf, Bindings.mem_names.2 hname⟩

theorem pairwise_symbols (fs : Frames) (id : FrameId) : (fs.symbols id).Pairwise (· < ·) :=
  pairwise_sortedTexts _

/-- Frames that find the same have the same symbols. -/
theorem symbols_eq_of_lookup {fs fs' : Frames} {id id' : FrameId}
    (h : ∀ name, fs'.lookup id' name = fs.lookup id name) : fs'.symbols id' = fs.symbols id := by
  refine sortedTexts_congr fun name => ?_
  have hmem : name ∈ fs'.symbols id' ↔ name ∈ fs.symbols id := by
    rw [mem_symbols, mem_symbols, h name]
  rwa [symbols, symbols, mem_sortedTexts, mem_sortedTexts] at hmem

-- ====================================================== more frames

theorem outer?_append {fs : Frames} {id : FrameId} (h : id < fs.length) (more : Frames) :
    (fs ++ more).outer? id = fs.outer? id := by
  unfold outer?
  rw [List.getElem?_append_left h]

theorem bindings_append {fs : Frames} {id : FrameId} (h : id < fs.length) (more : Frames) :
    (fs ++ more).bindings id = fs.bindings id := by
  unfold bindings
  rw [List.getElem?_append_left h]

/-- More frames do not change a path. -/
theorem path_append {fs : Frames} {id : FrameId} (h : id < fs.length) (more : Frames) :
    (fs ++ more).path id = fs.path id :=
  path_congr fun _ hg => outer?_append (Nat.lt_of_le_of_lt hg h) more

/-- They do not change what is found. -/
theorem lookup_append {fs : Frames} {id : FrameId} (h : id < fs.length) (more : Frames)
    (name : String) : (fs ++ more).lookup id name = fs.lookup id name :=
  lookup_congr (path_append h more)
    (fun _ hg => bindings_append (Nat.lt_of_le_of_lt (le_of_mem_path hg) h) more) name

theorem outer?_new (fs : Frames) (f : Frame) : (fs ++ [f]).outer? fs.length = f.outer := by
  unfold outer?
  rw [List.getElem?_append_right (Nat.le_refl _), Nat.sub_self]
  rfl

theorem bindings_new (fs : Frames) (f : Frame) : (fs ++ [f]).bindings fs.length = f.bindings := by
  unfold bindings
  rw [List.getElem?_append_right (Nat.le_refl _), Nat.sub_self]
  rfl

/-- The path of a frame that was just added. -/
theorem mem_path_new {fs : Frames} {f : Frame} (h : ∀ o, f.outer = some o → o < fs.length)
    {g : FrameId} (hg : g ∈ Frames.path (fs ++ [f]) fs.length) :
    g = fs.length ∨ ∃ o, f.outer = some o ∧ g ∈ fs.path o := by
  have hnew := outer?_new fs f
  cases ho : f.outer with
  | none =>
    rw [path_of_root (hnew.trans ho)] at hg
    exact .inl (List.mem_singleton.1 hg)
  | some o =>
    have hlt := h o ho
    rw [path_of_outer (hnew.trans ho) hlt, path_append hlt] at hg
    rcases List.mem_cons.1 hg with hg | hg
    · exact .inl hg
    · exact .inr ⟨o, rfl, hg⟩

/-- A frame that was just added shows its own bindings, then what is
around it. -/
theorem lookup_new {fs : Frames} {f : Frame} (h : ∀ o, f.outer = some o → o < fs.length)
    (name : String) :
    Frames.lookup (fs ++ [f]) fs.length name
      = (f.bindings.get? name).or (f.outer.bind fun o => fs.lookup o name) := by
  have hnew := outer?_new fs f
  cases ho : f.outer with
  | none =>
    rw [lookup_of_root (hnew.trans ho), bindings_new]
    exact (Option.or_none).symm
  | some o =>
    have hlt := h o ho
    rw [lookup_of_outer (hnew.trans ho) hlt, bindings_new, lookup_append hlt]
    rfl

/-- A frame that was just opened finds what its outer one does. -/
theorem lookup_push {fs : Frames} {outer : FrameId} (h : outer < fs.length) (name : String) :
    (fs.push outer).1.lookup (fs.push outer).2 name = fs.lookup outer name :=
  lookup_new (fun _ ho => Option.some.inj ho ▸ h) name

-- ====================================================== copies

/-- A frame that was added to a store and hangs below `outer`: its path
goes through added frames and then on from there. -/
structure Hung (fs : Frames) (outer : Option FrameId) (r : Frames × FrameId) : Prop where
  added : ∃ more, r.1 = fs ++ more
  inside : r.2 < r.1.length
  fresh : ∀ g ∈ r.1.path r.2, fs.length ≤ g ∨ ∃ o, outer = some o ∧ g ∈ fs.path o

/-- A chain that hangs nowhere is all new. -/
theorem Hung.above {fs : Frames} {r : Frames × FrameId} (h : Hung fs none r) {g : FrameId}
    (hg : g ∈ r.1.path r.2) : fs.length ≤ g := by
  rcases h.fresh g hg with hle | ⟨o, ho, -⟩
  · exact hle
  · cases ho

/-- A chain of copies hangs where it was put, and shows the copied frames
from the inside out and then what is around them. -/
theorem copyPath_spec (source : Frames) (ids : List FrameId) (outer : Option FrameId)
    (fs : Frames) (houter : ∀ o, outer = some o → o < fs.length) (h : ids ≠ [] ∨ outer ≠ none) :
    Hung fs outer (copyPath source outer ids fs)
      ∧ ∀ name, (copyPath source outer ids fs).1.lookup (copyPath source outer ids fs).2 name
          = (ids.reverse.findSome? fun f => (source.bindings f).get? name).or
              (outer.bind fun o => fs.lookup o name) := by
  induction ids generalizing outer fs with
  | nil =>
    cases outer with
    | none => simp at h
    | some o =>
      refine ⟨⟨⟨[], (List.append_nil fs).symm⟩, houter o rfl, fun g hg => ?_⟩, fun _ => rfl⟩
      exact .inr ⟨o, rfl, hg⟩
  | cons id inner ih =>
    -- the next copy hangs below the one made here
    obtain ⟨⟨⟨more, hmore⟩, hinside, hfresh⟩, hlookup⟩ :=
      ih (some fs.length) (fs ++ [⟨source.bindings id, outer⟩])
        (fun o ho => by simp [← Option.some.inj ho]) (.inr (Option.some_ne_none _))
    refine ⟨⟨⟨_, hmore.trans (List.append_assoc ..)⟩, hinside, fun g hg => ?_⟩, fun name => ?_⟩
    · rcases hfresh g hg with hle | ⟨o, ho, hg⟩
      · exact .inl (Nat.le_of_succ_le (by simpa using hle))
      · obtain rfl := Option.some.inj ho
        rcases mem_path_new houter hg with rfl | hg
        · exact .inl (Nat.le_refl _)
        · exact .inr hg
    · rw [copyPath, hlookup, List.reverse_cons, List.findSome?_append, Option.or_assoc]
      congr 1
      rw [Option.bind_some, lookup_new houter, List.findSome?_singleton]

/-- A copy is made of new frames and shows what the frame shows. -/
theorem copy_spec (fs : Frames) (id : FrameId) :
    Hung fs none (fs.copy id)
      ∧ ∀ name, (fs.copy id).1.lookup (fs.copy id).2 name = fs.lookup id name := by
  have hne : (fs.path id).reverse ≠ [] := by
    rw [Ne, List.reverse_eq_nil_iff]
    exact List.ne_nil_of_mem (self_mem_path fs id)
  obtain ⟨hhung, hlookup⟩ := copyPath_spec fs (fs.path id).reverse none fs
    (fun o ho => nomatch ho) (.inl hne)
  refine ⟨hhung, fun name => (hlookup name).trans ?_⟩
  rw [List.reverse_reverse]
  exact Option.or_none

end Frames

end LispShell
