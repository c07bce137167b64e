/-
Where the fields of a record come from.

A mapping has a node under a name if one of its own keys spells the name,
or else if a mapping that it merges has one, the first of them counting
(`Found`). A record that is decoded without a complaint has in each field
what the field's decoder makes of the node under its name, and a field
without a node stays as it was (`decode_found`).

# Method

What is decoded of a mapping is the record so far and the names that are
settled. A name that is settled is passed over, and otherwise its field is
decoded from the node that `Found` gives, after which the name is settled
(`Progressed`). Entries are followed one by one (`decodeEntry_cases`), the
merged mappings by induction on the depth.

The names that a mapping settles for those it merges are gathered apart
from decoding, and only from keys that are texts. So a name has to be a
word: its spelling means nothing else (`IsWord`).
-/
import LispShell.Proofs.Yaml.Clean

namespace LispShell.Yaml

open Decode

-- =================================================================== texts

/-- The text that a scalar spells, if it is not null. -/
def spelled? (tag s : String) : Option String :=
  match resolve tag s with
  | .ok .null | .error _ => none
  | .ok _ => if tag != "!!binary" then some s else base64? s

/-- The text that a node stands for. -/
def Document.text? (d : Document) (n : Node) : Option String :=
  match d.target n with
  | .scalar _ tag s => spelled? tag s
  | _ => none

/-- A text whose spelling means the text and nothing else. -/
def IsWord (name : String) : Prop :=
  ∀ dates, Meaning.ofSpelling dates name = .text

section

variable {d : Document} {n : Node} {s s' : Decoding}

theorem content_cleanly {tag spelling t : String} {m : Meaning}
    (h : Cleanly (content tag spelling) s (m, t) s') : resolve tag spelling = .ok m
      ∧ (if tag != "!!binary" then some spelling else base64? spelling) = some t := by
  obtain ⟨m', s₁, hm, h⟩ := h.bind (grows_meaning tag spelling) fun m => by
    split
    · exact grows_pure _
    · split
      · exact grows_pure _
      · exact grows_fail _
  have hresolve : resolve tag spelling = .ok m' := by
    unfold meaning at hm
    split at hm
    · next hok => rw [hok, hm.eq_of_pure]
    · exact hm.not_fail.elim
  split at h
  · next htag =>
    cases h.eq_of_pure
    exact ⟨hresolve, if_pos htag⟩
  · next htag =>
    split at h
    · next bytes hbytes =>
      cases h.eq_of_pure
      exact ⟨hresolve, (if_neg htag).trans hbytes⟩
    · exact h.not_fail.elim

/-- Decoding a text gives the text of the node. -/
theorem text_cleanly {t : Option String} (h : Cleanly (Decode.text d n) s t s') :
    t = d.text? n := by
  obtain ⟨s₁, s₂, h⟩ := h.following fun n => by
    split
    · refine (grows_content _ _).bind fun c => ?_
      split <;> exact grows_pure _
    · exact (grows_wrongCollection _ _).bind fun _ => grows_pure _
  split at h
  · next line tag spelling hn =>
    obtain ⟨⟨m, t'⟩, s₃, hcontent, h⟩ := h.bind (grows_content _ _) fun c => by
      split <;> exact grows_pure _
    obtain ⟨hresolve, htext⟩ := content_cleanly hcontent
    rw [Document.text?, hn]
    cases m <;> simp only [spelled?, hresolve, htext] <;> exact h.eq_of_pure
  · next hn =>
    obtain ⟨u, s₃, -, h⟩ := h.bind (grows_wrongCollection _ _) fun _ => grows_pure none
    rw [h.eq_of_pure, Document.text?]
    cases hn' : d.target n with
    | scalar line tag spelling => exact absurd hn' (hn line tag spelling)
    | _ => rfl

/-- A scalar that spells a word is a text, whatever its tag is. -/
theorem resolve_of_isWord {tag spelling name : String} (hword : IsWord name) {m : Meaning}
    (hresolve : resolve tag spelling = .ok m)
    (htext : (if tag != "!!binary" then some spelling else base64? spelling) = some name) :
    m = .text := by
  unfold resolve at hresolve
  split at hresolve
  · cases hresolve
    rfl
  · next hchecked =>
    have htag : tag ∈ checkedTags := by simpa using hchecked
    have hplain : (tag != "!!binary") = true := by
      rw [bne_iff_ne]
      rintro rfl
      exact absurd htag (by decide)
    rw [if_pos hplain] at htext
    cases htext
    rw [hword] at hresolve
    have hstr : ¬(Meaning.text.tag == tag) = true := by
      rw [beq_iff_eq]
      rintro rfl
      exact absurd htag (by decide)
    simp only [if_neg hstr] at hresolve
    simp at hresolve

theorem keyName_cleanly {t : Option String} {name : String} (hword : IsWord name)
    (h : Cleanly (keyName d n) s t s') : t = some name ↔ d.text? n = some name := by
  obtain ⟨s₁, s₂, h⟩ := h.following fun n => by
    split
    · refine (grows_content _ _).bind fun c => ?_
      split <;> exact grows_pure _
    · exact (grows_distinctKeys _).bind fun _ => grows_pure _
    · exact grows_pure _
  unfold Document.text?
  split at h
  · next line tag spelling hn =>
    obtain ⟨⟨m, t'⟩, s₃, hcontent, h⟩ := h.bind (grows_content _ _) fun c => by
      split <;> exact grows_pure _
    obtain ⟨hresolve, htext⟩ := content_cleanly hcontent
    rw [hn]
    simp only [spelled?, hresolve, htext]
    have hmeans : t' = name → m = .text := by
      rintro rfl
      exact resolve_of_isWord hword hresolve htext
    cases m with
    | text => rw [h.eq_of_pure]
    | null =>
      rw [h.eq_of_pure]
    | _ =>
      rw [h.eq_of_pure]
      refine iff_of_false nofun fun hname => ?_
      cases hmeans (Option.some.inj hname)
  · next line tag entries hn =>
    obtain ⟨u, s₃, -, h⟩ := h.bind (grows_distinctKeys _) fun _ => grows_pure none
    rw [h.eq_of_pure, hn]
  · next hn hn' =>
    rw [h.eq_of_pure]
    cases htarget : d.target n with
    | scalar line tag spelling => exact absurd htarget (hn line tag spelling)
    | _ => simp

end

-- =================================================== the node under a name

namespace Document

variable (d : Document) (name : String)

/-- The node of the first own key of a mapping that spells the name. -/
def own? : List (Node × Node) → Option Node
  | [] => none
  | (key, value) :: rest =>
    if Record.isMerge key = false ∧ d.text? key = some name then some value else own? rest

/-- The nodes that a merging key lists. -/
def sources : Node → List Node
  | .sequence _ _ items => items
  | n => [n]

/-- The nodes that a mapping merges, by its last merging key. -/
def mergedFrom (entries : List (Node × Node)) : List Node :=
  match (entries.filter fun e => Record.isMerge e.1).getLast? with
  | none => []
  | some (_, source) => sources source

mutual

/-- What a node has under a name: a node, or nothing. -/
inductive Found : Node → Option Node → Prop where
  | reference {line : Nat} {anchor : String} {place number : Nat} {o : Option Node}
      (h : Found (d.target (.reference line anchor place number)) o) :
      Found (.reference line anchor place number) o
  | scalar {line : Nat} {tag s : String} : Found (.scalar line tag s) none
  | own {line : Nat} {tag : String} {entries : List (Node × Node)} {n : Node}
      (h : d.own? name entries = some n) : Found (.mapping line tag entries) (some n)
  | merged {line : Nat} {tag : String} {entries : List (Node × Node)} {o : Option Node}
      (hown : d.own? name entries = none) (h : FoundFirst (mergedFrom entries) o) :
      Found (.mapping line tag entries) o

/-- What the first of some nodes that has a node under a name has. -/
inductive FoundFirst : List Node → Option Node → Prop where
  | nil : FoundFirst [] none
  | here {m n : Node} {rest : List Node} (h : Found m (some n)) : FoundFirst (m :: rest) (some n)
  | there {m : Node} {rest : List Node} {o : Option Node} (hm : Found m none)
      (h : FoundFirst rest o) : FoundFirst (m :: rest) o

end

variable {d name}

mutual

/-- There is one answer to what a node has under a name. -/
theorem Found.unique : ∀ {n : Node} {o o' : Option Node}, d.Found name n o → d.Found name n o' →
    o = o'
  | _, _, _, .reference h, .reference h' => h.unique h'
  | _, _, _, .scalar, .scalar => rfl
  | _, _, _, .own h, .own h' => h.symm.trans h'
  | _, _, _, .own h, .merged hown _ => absurd (h.symm.trans hown) (Option.some_ne_none _)
  | _, _, _, .merged hown _, .own h' => absurd (h'.symm.trans hown) (Option.some_ne_none _)
  | _, _, _, .merged _ h, .merged _ h' => h.unique h'

theorem FoundFirst.unique : ∀ {ns : List Node} {o o' : Option Node}, d.FoundFirst name ns o →
    d.FoundFirst name ns o' → o = o'
  | _, _, _, .nil, .nil => rfl
  | _, _, _, .here h, .here h' => h.unique h'
  | _, _, _, .here h, .there hm' _ => absurd (h.unique hm') (Option.some_ne_none _)
  | _, _, _, .there hm _, .here h' => absurd (hm.unique h').symm (Option.some_ne_none _)
  | _, _, _, .there _ h, .there _ h' => h.unique h'

end

/-- What a node has under names, one inside the other. -/
def FoundAt (d : Document) : List String → Node → Option Node → Prop
  | [], n, o => o = some n
  | name :: rest, n, o => d.Found name n none ∧ o = none
    ∨ ∃ m, d.Found name n (some m) ∧ FoundAt d rest m o

theorem FoundAt.unique {names : List String} {n : Node} {o o' : Option Node}
    (h : d.FoundAt names n o) (h' : d.FoundAt names n o') : o = o' := by
  induction names generalizing n with
  | nil => exact Eq.trans h (Eq.symm h')
  | cons name rest ih =>
    rcases h with ⟨hnone, rfl⟩ | ⟨m, hm, h⟩
    · rcases h' with ⟨-, rfl⟩ | ⟨m', hm', -⟩
      · rfl
      · cases hnone.unique hm'
    · rcases h' with ⟨hnone', -⟩ | ⟨m', hm', h'⟩
      · cases hm.unique hnone'
      · cases hm.unique hm'
        exact ih h h'

theorem own?_cons_of_isMerge {key : Node} (h : Record.isMerge key = true) (value : Node)
    (rest : List (Node × Node)) : d.own? name ((key, value) :: rest) = d.own? name rest := by
  simp [own?, h]

theorem own?_cons_of_text? {key : Node} (hmerge : Record.isMerge key = false)
    (h : d.text? key = some name) (value : Node) (rest : List (Node × Node)) :
    d.own? name ((key, value) :: rest) = some value := by
  simp [own?, hmerge, h]

theorem own?_cons_of_text?_ne {key : Node} (h : d.text? key ≠ some name) (value : Node)
    (rest : List (Node × Node)) : d.own? name ((key, value) :: rest) = d.own? name rest := by
  simp [own?, h]

end Document

-- ================================================================== entries

namespace Record

variable {τ β : Type} {r : Record τ} {d : Document} {name : String} {s s' : Decoding}

theorem text?_of_isMerge {key : Node} (h : isMerge key = true) : d.text? key = some "<<" := by
  cases key with
  | scalar line tag spelling =>
    obtain ⟨hspelling, htag⟩ : spelling = "<<" ∧ tag = "!!merge" := by simpa [isMerge] using h
    rw [hspelling, htag]
    rfl
  | _ => cases h

theorem grows_takenNames (entries : List (Node × Node)) : Grows (takenNames d entries) := by
  induction entries with
  | nil => exact grows_pure _
  | cons e rest ih => exact (grows_keyName d e.1).bind fun _ => ih.bind fun _ => grows_pure _

/-- The names that a mapping settles for those it merges are those of its
own keys. -/
theorem mem_takenNames (hword : IsWord name) (hmerge : name ≠ "<<")
    {entries : List (Node × Node)} {names : List String}
    (h : Cleanly (takenNames d entries) s names s') :
    name ∈ names ↔ (d.own? name entries).isSome = true := by
  induction entries generalizing s s' names with
  | nil =>
    rw [h.eq_of_pure]
    simp [Document.own?]
  | cons e rest ih =>
    obtain ⟨key, value⟩ := e
    obtain ⟨t, s₁, hkey, h⟩ := h.bind (grows_keyName d key) fun _ =>
      (grows_takenNames rest).bind fun _ => grows_pure _
    obtain ⟨others, s₂, hrest, h⟩ := h.bind (grows_takenNames rest) fun _ => grows_pure _
    rw [h.eq_of_pure, List.mem_append, Option.mem_toList]
    refine (or_congr_right (ih hrest)).trans ?_
    have hspelled := keyName_cleanly hword hkey
    by_cases htext : d.text? key = some name
    · have hown : isMerge key = false := by
        rw [Bool.eq_false_iff]
        intro hkey
        cases htext.symm.trans (text?_of_isMerge hkey)
        exact hmerge rfl
      rw [Document.own?_cons_of_text? hown htext]
      simp [hspelled.2 htext]
    · rw [Document.own?_cons_of_text?_ne htext]
      simp [mt hspelled.1 htext]

theorem grows_decodeNamed (hgrows : ∀ f ∈ r.fields, ∀ n x, Grows (f.decode d n x))
    (p : Progress τ) (key value : Node) (t : String) :
    Grows (decodeNamed r d p key value t) := by
  unfold decodeNamed
  split
  · exact grows_pure _
  · dsimp only
    split
    · exact (grows_complain _ _).bind fun _ => grows_pure _
    · next f hf =>
      split
      · exact (grows_complain _ _).bind fun _ => grows_pure _
      · exact (hgrows f (List.mem_of_find?_eq_some hf) _ _).bind fun _ => grows_pure _

theorem grows_decodeEntry (hgrows : ∀ f ∈ r.fields, ∀ n x, Grows (f.decode d n x))
    (p : Progress τ) (key value : Node) : Grows (decodeEntry r d p key value) := by
  refine (grows_text d key).bind fun o => ?_
  cases o with
  | none => exact grows_pure p
  | some t => exact grows_decodeNamed hgrows p key value t

/-- What can come of an entry: it is passed over, because its key is no
text or its name is settled, or the field of its name is decoded. -/
theorem decodeEntry_cases (hgrows : ∀ f ∈ r.fields, ∀ n x, Grows (f.decode d n x))
    {p p' : Progress τ} {key value : Node}
    (h : Cleanly (decodeEntry r d p key value) s p' s') :
    (p' = p ∧ ∀ t, d.text? key = some t → t ∈ p.taken.getD [])
    ∨ ∃ t f v s₁ s₂, d.text? key = some t ∧ t ∉ p.taken.getD [] ∧ t ∉ p.found
      ∧ r.fields.find? (fun f => f.name == t) = some f
      ∧ Cleanly (f.decode d value p.value) s₁ v s₂
      ∧ p' = ⟨v, p.taken.map (t :: ·), t :: p.found⟩ := by
  obtain ⟨o, s₁, htext, h⟩ := h.bind (grows_text d key) fun o => by
    cases o with
    | none => exact grows_pure p
    | some t => exact grows_decodeNamed hgrows p key value t
  rw [← text_cleanly htext]
  cases o with
  | none => exact .inl ⟨h.eq_of_pure, nofun⟩
  | some t =>
    dsimp only [decodeNamed] at h
    split at h
    · next htaken =>
      refine .inl ⟨h.eq_of_pure, ?_⟩
      rintro t' ⟨⟩
      exact List.contains_iff_mem.1 htaken
    · next htaken =>
      split at h
      · obtain ⟨u, s₂, hcomplain, -⟩ := h.bind (grows_complain _ _) fun _ => grows_pure _
        exact hcomplain.not_complain.elim
      · next f hf =>
        split at h
        · obtain ⟨u, s₂, hcomplain, -⟩ := h.bind (grows_complain _ _) fun _ => grows_pure _
          exact hcomplain.not_complain.elim
        · next hfound =>
          obtain ⟨v, s₂, hv, h⟩ := h.bind
            (hgrows f (List.mem_of_find?_eq_some hf) _ _) fun _ => grows_pure _
          exact .inr ⟨t, f, v, s₁, s₂, rfl, mt List.contains_iff_mem.2 htaken,
            mt List.contains_iff_mem.2 hfound, hf, hv, h.eq_of_pure⟩

/-- What `get` takes from a record changes with the field `name` only. -/
structure LooksAt (r : Record τ) (d : Document) (name : String) (get : τ → β) : Prop where
  grows : ∀ f ∈ r.fields, ∀ n x, Grows (f.decode d n x)
  others : ∀ f ∈ r.fields, f.name ≠ name → ∀ n x s v s', Cleanly (f.decode d n x) s v s' →
    get v = get x
  isWord : IsWord name
  ne_merge : name ≠ "<<"

/-- What `get` takes from a record is what the field `name` made of a
node, or what it was before if there is no node. -/
def Filled (r : Record τ) (d : Document) (name : String) (get : τ → β) (o : Option Node)
    (x v : τ) : Prop :=
  match o with
  | none => get v = get x
  | some n => ∃ f, r.fields.find? (fun f => f.name == name) = some f
    ∧ ∃ x₁ v₁ s₁ s₂, get x₁ = get x ∧ Cleanly (f.decode d n x₁) s₁ v₁ s₂ ∧ get v = get v₁

variable {get : τ → β}

theorem Filled.congr {o : Option Node} {x v x' v' : τ} (h : Filled r d name get o x v)
    (hx : get x = get x') (hv : get v' = get v) : Filled r d name get o x' v' := by
  cases o with
  | none => exact hv.trans (Eq.trans h hx)
  | some n =>
    obtain ⟨f, hf, x₁, v₁, s₁, s₂, hx₁, hv₁, hget⟩ := h
    exact ⟨f, hf, x₁, v₁, s₁, s₂, hx₁.trans hx, hv₁, hv.trans hget⟩

theorem grows_decodeEntries (hgrows : ∀ f ∈ r.fields, ∀ n x, Grows (f.decode d n x))
    (entries : List (Node × Node)) (p : Progress τ) : Grows (decodeEntries r d entries p) := by
  induction entries generalizing p with
  | nil => exact grows_pure p
  | cons e rest ih =>
    rw [decodeEntries]
    split
    · exact ih p
    · exact (grows_decodeEntry hgrows p e.1 e.2).bind ih

/-- One entry and then the rest of them. -/
theorem decodeEntries_cons (hgrows : ∀ f ∈ r.fields, ∀ n x, Grows (f.decode d n x))
    {key value : Node} {rest : List (Node × Node)} {p p' : Progress τ}
    (h : Cleanly (decodeEntries r d ((key, value) :: rest) p) s p' s') :
    (isMerge key = true ∧ Cleanly (decodeEntries r d rest p) s p' s')
    ∨ isMerge key = false ∧ ∃ p₁ s₁, Cleanly (decodeEntry r d p key value) s p₁ s₁
      ∧ Cleanly (decodeEntries r d rest p₁) s₁ p' s' := by
  rw [decodeEntries] at h
  split at h
  · next hmerge => exact .inl ⟨hmerge, h⟩
  · next hmerge =>
    exact .inr ⟨Bool.eq_false_iff.2 hmerge, h.bind (grows_decodeEntry hgrows p key value)
      (grows_decodeEntries hgrows rest)⟩

theorem mem_settled {t : String} (taken : Option (List String)) :
    name ∈ (taken.map (t :: ·)).getD []
      ↔ taken.isSome = true ∧ (name = t ∨ name ∈ taken.getD []) := by
  cases taken <;> simp

theorem isSome_of_mem_settled {taken : Option (List String)} (h : name ∈ taken.getD []) :
    taken.isSome = true := by
  cases taken with
  | none => cases h
  | some names => rfl

/-- A field of another name leaves alone what `get` takes. -/
theorem LooksAt.get_eq (hlooks : LooksAt r d name get) {t : String} {f : Field τ}
    (hf : r.fields.find? (fun f => f.name == t) = some f) (hne : t ≠ name) {n : Node} {x v : τ}
    (hv : Cleanly (f.decode d n x) s v s') : get v = get x := by
  have hname := List.find?_some hf
  refine hlooks.others f (List.mem_of_find?_eq_some hf) ?_ n x s v s' hv
  rw [eq_of_beq hname]
  exact hne

/-- Entries pass over a name that is settled or found. -/
theorem decodeEntries_closed (hlooks : LooksAt r d name get) {entries : List (Node × Node)}
    {p p' : Progress τ} (hclosed : name ∈ p.taken.getD [] ∨ name ∈ p.found)
    (h : Cleanly (decodeEntries r d entries p) s p' s') : get p'.value = get p.value
      ∧ p'.taken.isSome = p.taken.isSome ∧ (name ∈ p.taken.getD [] → name ∈ p'.taken.getD []) := by
  induction entries generalizing p s with
  | nil =>
    rw [h.eq_of_pure]
    exact ⟨rfl, rfl, id⟩
  | cons e rest ih =>
    rcases decodeEntries_cons hlooks.grows h with ⟨-, hrest⟩ | ⟨-, p₁, s₁, hentry, hrest⟩
    · exact ih hclosed hrest
    · rcases decodeEntry_cases hlooks.grows hentry with
        ⟨rfl, -⟩ | ⟨t, f, v, s₂, s₃, -, htaken, hfound, hf, hv, rfl⟩
      · exact ih hclosed hrest
      · have hne : t ≠ name := by
          rintro rfl
          exact hclosed.elim htaken hfound
        have hkept : name ∈ p.taken.getD [] → name ∈ (p.taken.map (t :: ·)).getD [] :=
          fun hmem => (mem_settled p.taken).2 ⟨isSome_of_mem_settled hmem, .inr hmem⟩
        obtain ⟨hvalue, hsome, hmem⟩ := ih (hclosed.imp hkept (List.mem_cons_of_mem t)) hrest
        exact ⟨hvalue.trans (hlooks.get_eq hf hne hv), hsome.trans Option.isSome_map,
          fun h => hmem (hkept h)⟩

/-- Entries fill the field of a name that is open, from the own key that
spells it. -/
theorem decodeEntries_open (hlooks : LooksAt r d name get) {entries : List (Node × Node)}
    {p p' : Progress τ} (htaken : name ∉ p.taken.getD []) (hfound : name ∉ p.found)
    (h : Cleanly (decodeEntries r d entries p) s p' s') :
    Filled r d name get (d.own? name entries) p.value p'.value
      ∧ p'.taken.isSome = p.taken.isSome
      ∧ (p.taken.isSome = true →
        (name ∈ p'.taken.getD [] ↔ (d.own? name entries).isSome = true)) := by
  -- As long as the name was not met it is open. The entry that has it closes it, and
  -- `decodeEntries_closed` takes over.
  induction entries generalizing p s with
  | nil =>
    rw [h.eq_of_pure]
    exact ⟨rfl, rfl, fun _ => iff_of_false htaken nofun⟩
  | cons e rest ih =>
    obtain ⟨key, value⟩ := e
    rcases decodeEntries_cons hlooks.grows h with ⟨hmerge, hrest⟩ | ⟨hmerge, p₁, s₁, hentry, hrest⟩
    · rw [Document.own?_cons_of_isMerge hmerge]
      exact ih htaken hfound hrest
    · rcases decodeEntry_cases hlooks.grows hentry with
        ⟨rfl, hpassed⟩ | ⟨t, f, v, s₂, s₃, htext, -, -, hf, hv, rfl⟩
      · rw [Document.own?_cons_of_text?_ne fun htext => htaken (hpassed name htext)]
        exact ih htaken hfound hrest
      · by_cases hname : t = name
        · subst hname
          rw [Document.own?_cons_of_text? hmerge htext]
          obtain ⟨hvalue, hsome, hmem⟩ :=
            decodeEntries_closed hlooks (.inr List.mem_cons_self) hrest
          refine ⟨⟨f, hf, p.value, v, s₂, s₃, rfl, hv, hvalue⟩, hsome.trans Option.isSome_map,
            fun htaken => iff_of_true (hmem ?_) rfl⟩
          exact (mem_settled p.taken).2 ⟨htaken, .inl rfl⟩
        · have hskip : d.text? key ≠ some name := by
            rw [htext]
            exact fun hsame => hname (Option.some.inj hsame)
          rw [Document.own?_cons_of_text?_ne hskip]
          have hopen : name ∉ (p.taken.map (t :: ·)).getD [] := by
            rw [mem_settled]
            rintro ⟨-, rfl | hmem⟩
            · exact hname rfl
            · exact htaken hmem
          have hunfound : name ∉ t :: p.found :=
            List.not_mem_cons_of_ne_of_not_mem (Ne.symm hname) hfound
          obtain ⟨hfilled, hsome, hmem⟩ := ih hopen hunfound hrest
          have hget := hlooks.get_eq hf hname hv
          refine ⟨hfilled.congr hget rfl, hsome.trans Option.isSome_map, fun htaken => hmem ?_⟩
          exact Option.isSome_map.trans htaken

-- ================================================================== records

/-- What decoding a record does about a name: it passes over one that is
settled, and fills the field of one that is open from the node under
it. -/
structure Progressed (r : Record τ) (d : Document) (name : String) (get : τ → β)
    (o : Option Node) (taken after : Option (List String)) (x v : τ) : Prop where
  isSome_eq : after.isSome = taken.isSome
  closed : name ∈ taken.getD [] → get v = get x ∧ name ∈ after.getD []
  opened : name ∉ taken.getD [] → Filled r d name get o x v
    ∧ (taken.isSome = true → (name ∈ after.getD [] ↔ o.isSome = true))

/-- Nothing was found and nothing was done. -/
theorem progressed_none (taken : Option (List String)) (x : τ) :
    Progressed r d name get none taken taken x x where
  isSome_eq := rfl
  closed := fun h => ⟨rfl, h⟩
  opened := fun h => ⟨rfl, fun _ => iff_of_false h nofun⟩

section

variable {again : Option (List String) → Node → τ → Decode (τ × Option (List String))}

theorem grows_decodeSources (hagain : ∀ taken n x, Grows (again taken n x)) (nodes : List Node)
    (names : List String) (x : τ) : Grows (decodeSources again nodes names x) := by
  induction nodes generalizing names x with
  | nil => exact grows_pure _
  | cons m rest ih => exact (hagain _ m x).bind fun p => ih _ p.1

theorem grows_settledNames (entries : List (Node × Node)) (taken : Option (List String)) :
    Grows (settledNames d entries taken) := by
  cases taken with
  | some names => exact grows_pure names
  | none => exact grows_takenNames entries

theorem grows_decodeMerged (hagain : ∀ taken n x, Grows (again taken n x))
    (entries : List (Node × Node)) (p : Progress τ) :
    Grows (decodeMerged d entries again p) := by
  unfold decodeMerged
  split
  · exact grows_pure _
  · refine (grows_settledNames entries p.taken).bind fun names => ?_
    split
    · exact grows_fail _
    · exact (grows_decodeSources hagain _ _ _).bind fun _ => grows_pure _

/-- One step and then another: a name that the first has found is settled
for the second. -/
theorem Progressed.trans {o o' : Option Node} {names names₁ names' : List String} {x v₁ v : τ}
    (h : Progressed r d name get o (some names) (some names₁) x v₁)
    (h' : Progressed r d name get o' (some names₁) (some names') v₁ v) :
    Progressed r d name get (o.or o') (some names) (some names') x v := by
  refine ⟨rfl, fun hsettled => ?_, fun hopen => ?_⟩
  · obtain ⟨hget, hmem⟩ := h.closed hsettled
    obtain ⟨hget', hmem'⟩ := h'.closed hmem
    exact ⟨hget'.trans hget, hmem'⟩
  · obtain ⟨hfilled, hmem⟩ := h.opened hopen
    cases o with
    | some n =>
      obtain ⟨hget', hmem'⟩ := h'.closed ((hmem rfl).2 rfl)
      exact ⟨hfilled.congr rfl hget', fun _ => iff_of_true hmem' rfl⟩
    | none =>
      obtain ⟨hfilled', hmem'⟩ := h'.opened fun hin => nomatch (hmem rfl).1 hin
      exact ⟨hfilled'.congr hfilled rfl, hmem'⟩

/-- Of the mappings that are merged, the first with a node under the name
fills its field. -/
theorem decodeSources_progressed (hagain : ∀ taken n x, Grows (again taken n x))
    (hfound : ∀ taken n x s v after s', Cleanly (again taken n x) s (v, after) s' →
      ∃ o, d.Found name n o ∧ Progressed r d name get o taken after x v)
    {nodes : List Node} {names names' : List String} {x v : τ}
    (h : Cleanly (decodeSources again nodes names x) s (v, names') s') :
    ∃ o, d.FoundFirst name nodes o
      ∧ Progressed r d name get o (some names) (some names') x v := by
  induction nodes generalizing names x s with
  | nil =>
    cases h.eq_of_pure
    exact ⟨none, .nil, progressed_none _ _⟩
  | cons m rest ih =>
    obtain ⟨⟨v₁, after⟩, s₁, hm, hrest⟩ := h.bind (hagain (some names) m x) fun p =>
      grows_decodeSources hagain rest _ p.1
    obtain ⟨o, hfirst, hprogressed⟩ := hfound _ m x s v₁ after s₁ hm
    obtain ⟨names₁, rfl⟩ := Option.isSome_iff_exists.1 hprogressed.isSome_eq
    obtain ⟨o', hothers, hprogressed'⟩ := ih hrest
    refine ⟨o.or o', ?_, hprogressed.trans hprogressed'⟩
    cases o with
    | some n => exact .here hfirst
    | none => exact .there hfirst hothers

theorem mergedNodes_eq {source : Node} {nodes : List Node}
    (h : mergedNodes d source = .ok nodes) : nodes = Document.sources source := by
  unfold mergedNodes at h
  cases source <;> dsimp only at h <;> split at h <;> cases h <;> rfl

theorem decodeEntries_progressed (hlooks : LooksAt r d name get) {entries : List (Node × Node)}
    {taken : Option (List String)} {x : τ} {p : Progress τ}
    (h : Cleanly (decodeEntries r d entries ⟨x, taken, []⟩) s p s') :
    Progressed r d name get (d.own? name entries) taken p.taken x p.value := by
  by_cases htaken : name ∈ taken.getD []
  · obtain ⟨hget, hsome, hmem⟩ := decodeEntries_closed hlooks (.inl htaken) h
    exact ⟨hsome, fun _ => ⟨hget, hmem htaken⟩, fun hopen => absurd htaken hopen⟩
  · obtain ⟨hfilled, hsome, hmem⟩ := decodeEntries_open hlooks htaken List.not_mem_nil h
    exact ⟨hsome, fun hclosed => absurd hclosed htaken, fun _ => ⟨hfilled, hmem⟩⟩

/-- Without an outer mapping no name is settled before, and none is
reported after. -/
theorem Progressed.outermost {o : Option Node} {names : List String} {x v : τ}
    (h : Progressed r d name get o (some []) (some names) x v) :
    Progressed r d name get o none none x v where
  isSome_eq := rfl
  closed := nofun
  opened := fun _ => ⟨(h.opened List.not_mem_nil).1, nofun⟩

/-- After the own entries of a mapping come those it merges. -/
theorem decodeMerged_progressed (hlooks : LooksAt r d name get)
    (hagain : ∀ taken n x, Grows (again taken n x))
    (hfound : ∀ taken n x s v after s', Cleanly (again taken n x) s (v, after) s' →
      ∃ o, d.Found name n o ∧ Progressed r d name get o taken after x v)
    {entries : List (Node × Node)} {taken after : Option (List String)} {x v : τ}
    {p : Progress τ}
    (hentries : Progressed r d name get (d.own? name entries) taken p.taken x p.value)
    (h : Cleanly (decodeMerged d entries again p) s (v, after) s') :
    ∃ o, d.FoundFirst name (Document.mergedFrom entries) o
      ∧ Progressed r d name get ((d.own? name entries).or o) taken after x v := by
  unfold decodeMerged at h
  split at h
  · next hnone =>
    rw [Document.mergedFrom, hnone]
    cases h.eq_of_pure
    refine ⟨none, .nil, ?_⟩
    rw [Option.or_none]
    exact hentries
  · next key source hsource =>
    rw [Document.mergedFrom, hsource]
    obtain ⟨names, s₁, hnames, h⟩ := h.bind (grows_settledNames entries p.taken) fun names => by
      split
      · exact grows_fail _
      · exact (grows_decodeSources hagain _ _ _).bind fun _ => grows_pure _
    split at h
    · exact h.not_fail.elim
    · next nodes hnodes =>
      obtain rfl := mergedNodes_eq hnodes
      obtain ⟨⟨w, names'⟩, s₂, hsources, h⟩ := h.bind (grows_decodeSources hagain _ _ _) fun _ =>
        grows_pure _
      cases h.eq_of_pure
      obtain ⟨o, hfirst, hprogressed⟩ := decodeSources_progressed hagain hfound hsources
      refine ⟨o, hfirst, ?_⟩
      -- inside of a merge the names that are taken are known; on the outside they are collected
      -- only now, from the keys of the mapping
      cases taken with
      | some outer =>
        obtain ⟨own, hown⟩ := Option.isSome_iff_exists.1 hentries.isSome_eq
        rw [hown] at hentries hnames ⊢
        cases hnames.eq_of_pure
        exact hentries.trans hprogressed
      | none =>
        have hown : p.taken = none := Option.isNone_iff_eq_none.1 (by
          rw [← Option.not_isSome, hentries.isSome_eq]
          rfl)
        rw [hown] at hnames ⊢
        have hmem := mem_takenNames hlooks.isWord hlooks.ne_merge hnames
        have hfirst : Progressed r d name get (d.own? name entries) (some []) (some names) x
            p.value :=
          ⟨rfl, nofun, fun _ => ⟨(hentries.opened List.not_mem_nil).1, fun _ => hmem⟩⟩
        exact (hfirst.trans hprogressed).outermost

theorem grows_decodeMapping (hgrows : ∀ f ∈ r.fields, ∀ n x, Grows (f.decode d n x))
    (hagain : ∀ taken n x, Grows (again taken n x)) (taken : Option (List String))
    (entries : List (Node × Node)) (x : τ) :
    Grows (decodeMapping r d again taken entries x) := by
  refine (grows_distinctKeys entries).bind fun distinct => ?_
  split
  · exact (grows_decodeEntries hgrows entries _).bind (grows_decodeMerged hagain entries)
  · exact grows_pure _

theorem decodeMapping_progressed (hlooks : LooksAt r d name get)
    (hagain : ∀ taken n x, Grows (again taken n x))
    (hfound : ∀ taken n x s v after s', Cleanly (again taken n x) s (v, after) s' →
      ∃ o, d.Found name n o ∧ Progressed r d name get o taken after x v)
    {entries : List (Node × Node)} {taken after : Option (List String)} {x v : τ} (line : Nat)
    (tag : String) (h : Cleanly (decodeMapping r d again taken entries x) s (v, after) s') :
    ∃ o, d.Found name (.mapping line tag entries) o
      ∧ Progressed r d name get o taken after x v := by
  obtain ⟨distinct, s₁, hdistinct, h⟩ := h.bind (grows_distinctKeys entries) fun distinct => by
    split
    · exact (grows_decodeEntries hlooks.grows entries _).bind (grows_decodeMerged hagain entries)
    · exact grows_pure _
  rw [hdistinct.distinctKeys_eq_true] at h
  obtain ⟨p, s₂, hentries, h⟩ := h.bind (grows_decodeEntries hlooks.grows entries _)
    (grows_decodeMerged hagain entries)
  obtain ⟨o, hfirst, hprogressed⟩ := decodeMerged_progressed hlooks hagain hfound
    (decodeEntries_progressed hlooks hentries) h
  refine ⟨_, ?_, hprogressed⟩
  cases hown : d.own? name entries with
  | some n => exact .own hown
  | none => exact .merged hown hfirst

end

theorem grows_decodeScalar (line : Nat) (tag spelling : String) :
    Grows (decodeScalar r line tag spelling) := by
  refine (grows_content tag spelling).bind fun c => ?_
  dsimp only
  split
  · exact grows_pure _
  · exact grows_wrongType _ _

theorem grows_decodeWith (hgrows : ∀ f ∈ r.fields, ∀ n x, Grows (f.decode d n x)) (fuel : Nat)
    (visiting : List Nat) (taken : Option (List String)) (n : Node) (x : τ) :
    Grows (decodeWith r d fuel visiting taken n x) := by
  induction fuel generalizing visiting taken n x with
  | zero => exact grows_fail _
  | succ fuel ih =>
    refine grows_visit.bind fun _ => ?_
    cases n with
    | reference line anchor place number =>
      dsimp only
      split
      · exact grows_fail _
      · exact grows_inside (ih _ _ _ _)
    | mapping line tag entries => exact grows_decodeMapping hgrows (ih visiting) taken entries x
    | scalar line tag spelling =>
      exact (grows_decodeScalar line tag spelling).bind fun _ => grows_pure _
    | sequence line tag items => exact (grows_wrongType _ _).bind fun _ => grows_pure _

/-- Decoding a record fills the field of a name from the node under it. -/
theorem decodeWith_progressed (hlooks : LooksAt r d name get) {fuel : Nat} {visiting : List Nat}
    {taken after : Option (List String)} {n : Node} {x v : τ}
    (h : Cleanly (decodeWith r d fuel visiting taken n x) s (v, after) s') :
    ∃ o, d.Found name n o ∧ Progressed r d name get o taken after x v := by
  -- the fuel goes down with every node, and references count as nodes
  induction fuel generalizing visiting taken n x v after s s' with
  | zero => exact h.not_fail.elim
  | succ fuel ih =>
    have hagain := grows_decodeWith hlooks.grows fuel
    cases n with
    | reference line anchor place number =>
      obtain ⟨u, s₁, -, h⟩ := h.bind grows_visit fun _ => by
        dsimp only
        split
        · exact grows_fail _
        · exact grows_inside (hagain _ _ _ _)
      dsimp only at h
      split at h
      · exact h.not_fail.elim
      · obtain ⟨s₂, s₃, h⟩ := h.inside (hagain _ _ _ _)
        obtain ⟨o, hfound, hprogressed⟩ := ih h
        exact ⟨o, .reference hfound, hprogressed⟩
    | mapping line tag entries =>
      obtain ⟨u, s₁, -, h⟩ := h.bind grows_visit fun _ =>
        grows_decodeMapping hlooks.grows (hagain visiting) taken entries x
      exact decodeMapping_progressed hlooks (hagain visiting) (fun _ _ _ _ _ _ _ h => ih h)
        line tag h
    | scalar line tag spelling =>
      obtain ⟨u, s₁, -, h⟩ := h.bind grows_visit fun _ =>
        (grows_decodeScalar line tag spelling).bind fun _ => grows_pure _
      obtain ⟨u, s₂, -, h⟩ := h.bind (grows_decodeScalar line tag spelling) fun _ => grows_pure _
      cases h.eq_of_pure
      exact ⟨none, .scalar, progressed_none _ _⟩
    | sequence line tag items =>
      obtain ⟨u, s₁, -, h⟩ := h.bind grows_visit fun _ =>
        (grows_wrongType _ _).bind fun _ => grows_pure _
      obtain ⟨u, s₂, hwrong, -⟩ := h.bind (grows_wrongType _ _) fun _ => grows_pure _
      exact hwrong.not_complain.elim

theorem grows_decode (hgrows : ∀ f ∈ r.fields, ∀ n x, Grows (f.decode d n x)) (n : Node) (x : τ) :
    Grows (r.decode d n x) :=
  (grows_decodeWith hgrows _ _ _ n x).bind fun _ => grows_pure _

/-- A record has in a field what the field's decoder made of the node under
its name. -/
theorem decode_found (hlooks : LooksAt r d name get) {n : Node} {x v : τ}
    (h : Cleanly (r.decode d n x) s v s') :
    ∃ o, d.Found name n o ∧ Filled r d name get o x v := by
  obtain ⟨⟨w, after⟩, s₁, hwith, h⟩ := h.bind (grows_decodeWith hlooks.grows _ _ _ n x) fun _ =>
    grows_pure _
  obtain ⟨o, hfound, hprogressed⟩ := decodeWith_progressed hlooks hwith
  rw [h.eq_of_pure]
  exact ⟨o, hfound, (hprogressed.opened List.not_mem_nil).1⟩

/-- A record without a field of the name keeps what `get` takes. -/
theorem decode_get_eq (hlooks : LooksAt r d name get)
    (hnone : r.fields.find? (fun f => f.name == name) = none) {n : Node} {x v : τ}
    (h : Cleanly (r.decode d n x) s v s') : get v = get x := by
  obtain ⟨o, -, hfilled⟩ := decode_found hlooks h
  cases o with
  | none => exact hfilled
  | some m =>
    obtain ⟨f, hf, -⟩ := hfilled
    cases hnone.symm.trans hf

end Record

end LispShell.Yaml
