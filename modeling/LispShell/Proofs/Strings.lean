/-
The procedures of the module `strings` fit together.

Splitting, replacing and searching each scan the text on their own. They
find the same places (`procedures_agree`): joining undoes splitting, a
replacement is a split and a join, what is split off does not hold the
separator any more, and a text holds a piece exactly if the piece has an
index in it, which is its first place.

The statements are about calls of the members of the module, on the
platform, at any site and in any state. `Replies` nests as calls do: of the
value that one call replies with, it says what the next call makes.
-/
import LispShell.Platform
import LispShell.Proofs.Arithmetic
import LispShell.Proofs.Derivation
import LispShell.Proofs.Text.Search

namespace LispShell

/-- The value is a sequence of texts. -/
def Value.IsTexts (texts : List String) (v : Value) : Prop :=
  ∃ mark, v = .sequence mark (texts.map .text)

namespace Strings

-- ====================================================== calls of members

/-- Calling the member of a name succeeds, at every site and in every
state, with a value of which `P` holds. Nothing changes but the journal and
the count of identities. -/
def Replies (name : String) (args : List Value) (P : Value → Prop) : Prop :=
  ∃ p, members.lookup name = some (.proc p)
    ∧ ∀ (site : Site) (inner : Eval.Inner Platform) (m : Machine Platform),
      ∃ v made journal,
        Eval.call Platform.host site inner p args m = .done (.ok v) { m with made, journal } ∧ P v

/-- Every procedure of the module is one of its members. -/
theorem lookup_members {name : String} {f : List Value → Result}
    (h : procedures.lookup name = some f) :
    members.lookup name = some (.proc (.host ⟨"strings", name, false⟩)) := by
  unfold members
  generalize procedures = entries at h
  induction entries with
  | nil => cases h
  | cons entry rest ih =>
    rw [List.map_cons, List.lookup_cons]
    rw [List.lookup_cons] at h
    by_cases hname : name = entry.1
    · simp [hname]
    · have hne : (name == entry.1) = false := by simpa using hname
      rw [hne] at h ⊢
      exact ih h

namespace Replies

variable {name : String} {args : List Value} {P Q : Value → Prop}

/-- Less may be said about what a procedure replies. -/
theorem mono (h : Replies name args P) (hPQ : ∀ v, P v → Q v) : Replies name args Q := by
  obtain ⟨p, hname, hcall⟩ := h
  refine ⟨p, hname, ?_⟩
  intro site inner m
  obtain ⟨v, made, journal, hrun, hv⟩ := hcall site inner m
  exact ⟨v, made, journal, hrun, hPQ v hv⟩

/-- A call replies with what the procedure makes, once it has its identity. -/
theorem of_ok {f : List Value → Result} {v : Value} (hname : procedures.lookup name = some f)
    (hf : f args = .ok v) (hP : ∀ mark, P (v.identify mark)) : Replies name args P := by
  refine ⟨_, lookup_members hname, ?_⟩
  intro site inner m
  have hscript : Platform.host.call ⟨"strings", name, false⟩ args = .finish (.ok v) := by
    show (Platform.call? ⟨"strings", name, false⟩ args).getD _ = _
    simp [Platform.call?, hname, hf, Platform.ofResult]
  have hdone : Eval.applyProc Platform.host site inner args (.host ⟨"strings", name, false⟩)
      (m.noting (.host ⟨"strings", name, false⟩) args)
      = .done (.ok v) (m.noting (.host ⟨"strings", name, false⟩) args) := by
    rw [Eval.applyProc, hscript]
    rfl
  rw [Eval.call_done hdone, Machine.settling]
  split
  · exact ⟨_, _, _, rfl, hP _⟩
  · exact ⟨_, _, _, rfl, hP _⟩

end Replies

-- ====================================================== what the procedures reply

theorem split_replies (s sep : String) :
    Replies "split" [.text s, .text sep] (Value.IsTexts (Text.split s sep)) :=
  .of_ok rfl rfl fun mark => ⟨mark, rfl⟩

/-- A text is shown as it is, so texts are joined as they are. -/
theorem join_replies {texts : List String} {v : Value} (hv : v.IsTexts texts) (sep : String) :
    Replies "join" [v, .text sep] (· = .text (Text.join sep texts)) := by
  obtain ⟨mark, rfl⟩ := hv
  have hshown : (texts.map Value.text).map Value.format = texts := by
    rw [List.map_map]
    exact List.map_id texts
  refine .of_ok (f := join) (v := .text (Text.join sep ((texts.map .text).map Value.format)))
    rfl rfl ?_
  intro mark
  rw [hshown]
  rfl

/-- `replace` replies with the text in which every piece was replaced. -/
theorem replace_replies (s old new : String) :
    Replies "replace" [.text s, .text old, .text new] (· = .text (Text.replace s old new)) :=
  .of_ok rfl rfl fun _ => rfl

/-- `contains` replies whether the piece occurs. -/
theorem contains_replies (s piece : String) :
    Replies "contains" [.text s, .text piece] (· = .bool (Text.contains s piece)) :=
  .of_ok rfl rfl fun _ => rfl

/-- `index` replies with the place of the first occurrence. -/
theorem index_replies (s piece : String) {n : ℤ} (hn : offsetValue s piece = .ofInt n) :
    Replies "index" [.text s, .text piece] (Value.Normal n) := by
  refine .of_ok (f := onTexts "index" offsetValue) (v := .ofInt n) rfl ?_ ?_
  · rw [← hn]
    rfl
  · exact (Value.normal_ofInt n).identify

-- ====================================================== agreement

/-- The places found from the left are determined, and there is one part
more of them. -/
theorem split_places {sep : String} (hsep : sep ≠ "") (s : String) :
    ∃ places, (∀ others, Text.FoundFrom sep.toList s.toList 0 others ↔ others = places)
      ∧ (Text.split s sep).length = places.length + 1 := by
  obtain ⟨places, hfound, hcount⟩ := (Text.parted_split hsep s).found []
  refine ⟨places, ?_, hcount⟩
  intro others
  constructor
  · intro hothers
    exact hothers.unique hfound
  · intro heq
    rw [heq]
    exact hfound

/-- The index of a piece is its first place; it is negative exactly if the
text does not hold the piece. -/
theorem index_first (s piece : String) :
    ∃ n : ℤ, offsetValue s piece = .ofInt n
      ∧ Text.contains s piece = decide (0 ≤ n)
      ∧ (0 ≤ n → IsLeast {k | Text.StandsAt piece.toList s.toList k} n.toNat)
      ∧ (n < 0 → ∀ k, ¬Text.StandsAt piece.toList s.toList k) := by
  rcases Text.offset?_cases s piece with ⟨k, hk, hfirst⟩ | ⟨hnone, hnowhere⟩
  · refine ⟨k, by rw [offsetValue, hk], by simp [Text.contains, hk], fun _ => hfirst, ?_⟩
    intro hneg
    omega
  · refine ⟨-1, by rw [offsetValue, hnone], by simp [Text.contains, hnone], ?_, fun _ => hnowhere⟩
    intro hle
    omega

/-- Joining undoes splitting at whatever separator; replacing is splitting
and joining; a separator that is not empty stands in no part, and there is
one part more than places where it is found from the left; and a text holds
a piece exactly if the index is not negative, and then the index is the
first offset in bytes where the piece stands. -/
theorem procedures_agree (s sep old new : String) :
    (Replies "split" [.text s, .text sep] fun parts =>
      Replies "join" [parts, .text sep] (· = .text s))
    ∧ (old ≠ "" → ∃ r,
      Replies "replace" [.text s, .text old, .text new] (· = .text r)
      ∧ Replies "split" [.text s, .text old] fun parts =>
        Replies "join" [parts, .text new] (· = .text r))
    ∧ (sep ≠ "" → ∃ places,
      (∀ others, Text.FoundFrom sep.toList s.toList 0 others ↔ others = places)
      ∧ Replies "split" [.text s, .text sep] fun parts =>
        ∃ texts, parts.IsTexts texts
          ∧ (∀ text ∈ texts, ∀ k, ¬Text.StandsAt sep.toList text.toList k)
          ∧ texts.length = places.length + 1)
    ∧ ∃ n : ℤ,
      Replies "index" [.text s, .text sep] (Value.Normal n)
      ∧ Replies "contains" [.text s, .text sep] (· = .bool (decide (0 ≤ n)))
      ∧ (0 ≤ n → IsLeast {k | Text.StandsAt sep.toList s.toList k} n.toNat)
      ∧ (n < 0 → ∀ k, ¬Text.StandsAt sep.toList s.toList k) := by
  refine ⟨?_, ?_, ?_, ?_⟩
  · apply (split_replies s sep).mono
    intro parts hparts
    have hjoin := join_replies hparts sep
    rwa [Text.join_split] at hjoin
  · intro hold
    refine ⟨_, replace_replies s old new, ?_⟩
    apply (split_replies s old).mono
    intro parts hparts
    rw [Text.replace_eq_join_split hold]
    exact join_replies hparts new
  · intro hsep
    obtain ⟨places, hplaces, hcount⟩ := split_places hsep s
    have hparted := Text.parted_split hsep s
    refine ⟨places, hplaces, (split_replies s sep).mono ?_⟩
    intro parts hparts
    exact ⟨_, hparts, hparted.not_standsAt (by simpa using hsep), hcount⟩
  · obtain ⟨n, hn, hcontains, hfirst, hnowhere⟩ := index_first s sep
    refine ⟨n, index_replies s sep hn, ?_, hfirst, hnowhere⟩
    rw [← hcontains]
    exact contains_replies s sep

/-- A piece that overlaps itself: it stands at three offsets and is found
at two. -/
theorem procedures_agree_overlapping :
    "aa" ≠ ""
    ∧ (∃ r,
      Replies "replace" [.text "aaabaa", .text "aa", .text "-"] (· = .text r)
      ∧ Replies "split" [.text "aaabaa", .text "aa"] fun parts =>
        Replies "join" [parts, .text "-"] (· = .text r))
    ∧ ∃ places,
      (∀ others, Text.FoundFrom "aa".toList "aaabaa".toList 0 others ↔ others = places)
      ∧ Replies "split" [.text "aaabaa", .text "aa"] fun parts =>
        ∃ texts, parts.IsTexts texts
          ∧ (∀ text ∈ texts, ∀ k, ¬Text.StandsAt "aa".toList text.toList k)
          ∧ texts.length = places.length + 1 :=
  have hpiece : "aa" ≠ "" := by decide
  have hagree := procedures_agree "aaabaa" "aa" "aa" "-"
  ⟨hpiece, hagree.2.1 hpiece, hagree.2.2.1 hpiece⟩

example : Text.split "aaabaa" "aa" = ["", "ab", ""] ∧ Text.offset? "aaabaa" "aab" = some 1 := by
  decide

end Strings

end LispShell
