/-
The lists of a settings file.

A list is written as one text or as a sequence of texts. What counts are
the texts that are not blank, without the blanks around them, in their
order (`kept`). There is one way to write a list that this does not hold
for: a sequence with the tag of null is taken as it is, blanks and all
(`Listed`).

The lists of decoded settings are those of the nodes that the document
has for them (`preload_of_document`, `wasmPaths_of_document`): nothing
else in a file has a say in them, and a list that is written is not
passed over.
-/
import LispShell.Proofs.Yaml.Fields
import LispShell.Settings

namespace LispShell.Settings

open Yaml Decode

-- ==================================================================== lists

/-- The texts that are not blank, without the blanks around them. -/
def kept (texts : List String) : List String :=
  (texts.map Text.trim).filter (· != "")

/-- The texts of a list as it is written. -/
def entries (d : Document) (n : Node) : List String :=
  match d.target n with
  | .scalar _ tag s => if tag == Meaning.null.tag then [] else [s]
  | .sequence _ _ items => items.map fun item => (d.text? item).getD ""
  | _ => []

/-- The node is a sequence with the tag of null. -/
def NullTagged (d : Document) (n : Node) (items : List Node) : Prop :=
  ∃ line, d.target n = .sequence line Meaning.null.tag items

/-- The list that a node gives. -/
structure Listed (d : Document) (n : Node) (texts : List String) : Prop where
  eq_kept : (∀ items, ¬NullTagged d n items) → texts = kept (entries d n)
  eq_written : ∀ items, NullTagged d n items → texts = items.filterMap d.text?

/-- A blank text is dropped, another one trimmed. -/
theorem kept_cons (text : String) (rest : List String) :
    kept (text :: rest)
      = if Text.trim text == "" then kept rest else Text.trim text :: kept rest := by
  simp only [kept, List.map_cons, List.filter_cons]
  cases h : Text.trim text == "" <;> simp [bne, h]

section

variable {d : Document} {s s' : Decoding}

theorem grows_decodeItems (items : List Node) : Grows (decodeItems d items) := by
  induction items with
  | nil => exact grows_pure _
  | cons n rest ih =>
    refine (grows_apart _).bind fun p => (grows_complainAll _).bind fun _ => ?_
    split
    · exact grows_pure _
    · exact ih.bind fun _ => grows_pure _

/-- Items are decoded to the texts that are kept of them. -/
theorem decodeItems_cleanly {items : List Node} {o : Option (List String)}
    (h : Cleanly (decodeItems d items) s o s') :
    o = some (kept (items.map fun item => (d.text? item).getD "")) := by
  induction items generalizing s s' o with
  | nil => exact h.eq_of_pure
  | cons n rest ih =>
    have hrest : ∀ (complaints : Complaints) (trimmed : String), Grows (if !complaints.isEmpty then
        pure none else do
          let others ← decodeItems d rest
          return others.map fun more => if trimmed == "" then more else trimmed :: more
        : Decode (Option (List String))) := by
      intro complaints trimmed
      split
      · exact grows_pure _
      · exact (grows_decodeItems rest).bind fun _ => grows_pure _
    obtain ⟨⟨t, complaints⟩, s₁, hapart, h⟩ := h.bind (grows_apart _) fun p =>
      (grows_complainAll _).bind fun _ => hrest p.2 _
    obtain ⟨u, s₂, hcomplain, h⟩ := h.bind (grows_complainAll _) fun _ => hrest complaints _
    obtain rfl := hcomplain.eq_nil_of_complainAll
    obtain ⟨s₃, htext⟩ := hapart.apart
    obtain ⟨others, s₄, hothers, h⟩ := h.bind (grows_decodeItems rest) fun _ => grows_pure _
    rw [h.eq_of_pure, ih hothers, text_cleanly htext, List.map_cons, kept_cons]
    rfl

theorem grows_decodeTexts (items : List Node) : Grows (decodeTexts d items) := by
  induction items with
  | nil => exact grows_pure _
  | cons n rest ih => exact (grows_text d n).bind fun _ => ih.bind fun _ => grows_pure _

/-- Without a complaint every item is a text. -/
theorem decodeTexts_cleanly {items : List Node} {texts : List String}
    (h : Cleanly (decodeTexts d items) s texts s') : texts = items.filterMap d.text? := by
  induction items generalizing s s' texts with
  | nil => exact h.eq_of_pure
  | cons n rest ih =>
    obtain ⟨t, s₁, htext, h⟩ := h.bind (grows_text d n) fun _ =>
      (grows_decodeTexts rest).bind fun _ => grows_pure _
    obtain ⟨others, s₂, hothers, h⟩ := h.bind (grows_decodeTexts rest) fun _ => grows_pure _
    rw [h.eq_of_pure, ih hothers, List.filterMap_cons, ← text_cleanly htext]
    cases t <;> rfl

theorem grows_decodeListNode (d : Document) (n : Node) : Grows (decodeListNode d n) := by
  unfold decodeListNode
  split
  · exact (grows_meaning _ _).bind fun _ => grows_pure _
  · exact grows_pure _
  · exact (grows_decodeTexts _).bind fun _ => grows_pure _
  · exact grows_decodeItems _
  · exact (grows_wrongCollection _ _).bind fun _ => grows_pure _
  · exact grows_fail _

theorem grows_decodeList (d : Document) (n : Node) : Grows (decodeList d n) :=
  grows_following d n (grows_decodeListNode d)

/-- The wrong kind of node is always a complaint. -/
theorem not_wrongCollection {n : Node} {type : String} {u : Unit}
    (h : Cleanly (wrongCollection n type) s u s') : False := by
  unfold wrongCollection at h
  split at h
  · obtain ⟨distinct, s₁, hdistinct, h⟩ := h.bind (grows_distinctKeys _) fun distinct => by
      split
      · exact grows_wrongType _ _
      · exact grows_pure _
    rw [hdistinct.distinctKeys_eq_true] at h
    exact h.not_complain
  · exact h.not_complain

/-- A scalar lists itself, and null nothing. -/
theorem listed_scalar {n : Node} {line : Nat} {tag spelling : String} {texts : List String}
    (hn : d.target n = .scalar line tag spelling)
    (h : texts = kept (if tag == Meaning.null.tag then [] else [spelling])) :
    Listed d n texts where
  eq_kept := fun _ => by simp only [h, entries, hn]
  eq_written := fun items ⟨line', htarget⟩ => by cases hn.symm.trans htarget

/-- What is kept of one text. -/
theorem kept_singleton (text : String) :
    kept [text] = if Text.trim text == "" then [] else [Text.trim text] := by
  rw [kept_cons]
  rfl

/-- A list is decoded to the list that its node gives. -/
theorem decodeList_cleanly {n : Node} {o : Option (List String)}
    (h : Cleanly (decodeList d n) s o s') : ∃ texts, o = some texts ∧ Listed d n texts := by
  obtain ⟨s₁, s₂, h⟩ := h.following (grows_decodeListNode d)
  -- null, a scalar, a sequence tagged as null, any other sequence, and what is no list at all
  unfold decodeListNode at h
  split at h
  · next line tag spelling hn htag =>
    obtain ⟨m, s₃, -, h⟩ := h.bind (grows_meaning _ _) fun _ => grows_pure _
    have hnull : (tag == Meaning.null.tag) = true := by
      rw [hn] at htag
      exact htag
    exact ⟨[], h.eq_of_pure, listed_scalar hn (by rw [if_pos hnull]; rfl)⟩
  · next line tag spelling hn htag =>
    have hplain : ¬(tag == Meaning.null.tag) = true := by
      rw [hn] at htag
      exact Bool.eq_false_iff.1 htag
    refine ⟨_, h.eq_of_pure, listed_scalar hn ?_⟩
    rw [if_neg hplain, kept_singleton]
  · next line tag items hn htag =>
    obtain ⟨texts, s₃, htexts, h⟩ := h.bind (grows_decodeTexts items) fun _ => grows_pure _
    refine ⟨texts, h.eq_of_pure, fun hnot => ?_, fun items' ⟨line', htarget⟩ => ?_⟩
    · rw [hn] at htag
      obtain rfl : tag = Meaning.null.tag := beq_iff_eq.1 htag
      exact absurd ⟨line, hn⟩ (hnot items)
    · cases hn.symm.trans htarget
      exact decodeTexts_cleanly htexts
  · next line tag items hn htag =>
    refine ⟨_, decodeItems_cleanly h, fun _ => by simp only [entries, hn], ?_⟩
    rintro items' ⟨line', htarget⟩
    rw [htarget] at htag
    cases htag
  · obtain ⟨u, s₃, hwrong, -⟩ := h.bind (grows_wrongCollection _ _) fun _ => grows_pure _
    exact (not_wrongCollection hwrong).elim
  · exact h.not_fail.elim

end

-- =================================================================== fields

section

variable {α β : Type} {d : Document} {name : String} {s s' : Decoding}
  {decoder : Document → Node → Decode (Option α)} {put : Settings → α → Settings}

/-- A field complains where its decoder does. -/
theorem grows_field (hdecoder : ∀ n, Grows (decoder d n)) (n : Node) (x : Settings) :
    Grows ((field name decoder put).decode d n x) := by
  refine (hdecoder n).bind fun o => ?_
  cases o with
  | none => exact grows_pure x
  | some v => exact grows_pure (put x v)

/-- A field holds what its decoder gives, if it gives something. -/
theorem field_cleanly (hdecoder : ∀ n, Grows (decoder d n)) {n : Node} {x v : Settings}
    (h : Cleanly ((field name decoder put).decode d n x) s v s') :
    ∃ o s₁, Cleanly (decoder d n) s o s₁ ∧ v = (o.map (put x)).getD x := by
  obtain ⟨o, s₁, hdecoded, h⟩ := h.bind (hdecoder n) fun o => by
    cases o with
    | none => exact grows_pure x
    | some v => exact grows_pure (put x v)
  refine ⟨o, s₁, hdecoded, ?_⟩
  cases o with
  | none => exact h.eq_of_pure
  | some v => exact h.eq_of_pure

/-- It leaves the other fields as they are. -/
theorem field_get_eq {get : Settings → β} (hdecoder : ∀ n, Grows (decoder d n)) {n : Node}
    {x v : Settings} (h : Cleanly ((field name decoder put).decode d n x) s v s')
    (hput : ∀ x v, get (put x v) = get x) : get v = get x := by
  obtain ⟨o, s₁, -, rfl⟩ := field_cleanly hdecoder h
  cases o with
  | none => rfl
  | some v => exact hput x v

end

section

variable {β : Type} (d : Document)

theorem grows_modulesRecord : ∀ f ∈ modulesRecord.fields, ∀ n x, Grows (f.decode d n x) :=
  List.forall_mem_cons.2 ⟨grows_field (grows_decodeList d),
    List.forall_mem_cons.2 ⟨grows_field (grows_bool d), nofun⟩⟩

theorem grows_logRecord : ∀ f ∈ logRecord.fields, ∀ n x, Grows (f.decode d n x) :=
  List.forall_mem_cons.2 ⟨grows_field (grows_text d), nofun⟩

theorem grows_record : ∀ f ∈ record.fields, ∀ n x, Grows (f.decode d n x) :=
  List.forall_mem_cons.2 ⟨grows_field (grows_text d), List.forall_mem_cons.2
    ⟨grows_field (grows_text d), List.forall_mem_cons.2 ⟨grows_field (grows_decodeList d),
      List.forall_mem_cons.2 ⟨Record.grows_decode (grows_modulesRecord d),
        List.forall_mem_cons.2 ⟨Record.grows_decode (grows_logRecord d), nofun⟩⟩⟩⟩⟩

theorem isWord_preload : IsWord "preload" := by
  intro dates
  cases dates <;> decide

theorem isWord_modules : IsWord "modules" := by
  intro dates
  cases dates <;> decide

theorem isWord_wasm_paths : IsWord "wasm_paths" := by
  intro dates
  cases dates <;> decide

variable {d} {s s' : Decoding}

/-- The part about modules has nothing to do with the files to load
first. -/
theorem modules_preload_eq {n : Node} {x v : Settings}
    (h : Cleanly (modulesRecord.decode d n x) s v s') : v.preload = x.preload := by
  have hlooks : modulesRecord.LooksAt d "preload" Settings.preload := by
    refine ⟨grows_modulesRecord d, ?_, isWord_preload, by decide⟩
    refine List.forall_mem_cons.2 ⟨?_, List.forall_mem_cons.2 ⟨?_, nofun⟩⟩
    · exact fun _ _ _ _ _ _ h => field_get_eq (grows_decodeList d) h fun _ _ => rfl
    · exact fun _ _ _ _ _ _ h => field_get_eq (grows_bool d) h fun _ _ => rfl
  exact Record.decode_get_eq hlooks rfl h

/-- The part about log lines sets the level only. -/
theorem log_get_eq {get : Settings → β} (hlevel : ∀ x level, get { x with level } = get x)
    {n : Node} {x v : Settings} (h : Cleanly (logRecord.decode d n x) s v s') :
    get v = get x := by
  have hlooks : logRecord.LooksAt d "preload" get := by
    refine ⟨grows_logRecord d, ?_, isWord_preload, by decide⟩
    refine List.forall_mem_cons.2 ⟨?_, nofun⟩
    exact fun _ _ _ _ _ _ h => field_get_eq (grows_text d) h hlevel
  exact Record.decode_get_eq hlooks rfl h

theorem looksAt_preload : record.LooksAt d "preload" Settings.preload := by
  refine ⟨grows_record d, ?_, isWord_preload, by decide⟩
  refine List.forall_mem_cons.2 ⟨?_, List.forall_mem_cons.2 ⟨?_, List.forall_mem_cons.2
    ⟨fun hne => absurd rfl hne, List.forall_mem_cons.2 ⟨?_, List.forall_mem_cons.2 ⟨?_, nofun⟩⟩⟩⟩⟩
  · exact fun _ _ _ _ _ _ h => field_get_eq (grows_text d) h fun _ _ => rfl
  · exact fun _ _ _ _ _ _ h => field_get_eq (grows_text d) h fun _ _ => rfl
  · exact fun _ _ _ _ _ _ h => modules_preload_eq h
  · exact fun _ _ _ _ _ _ h => log_get_eq (fun _ _ => rfl) h

theorem looksAt_modules : record.LooksAt d "modules" Settings.wasmPaths := by
  refine ⟨grows_record d, ?_, isWord_modules, by decide⟩
  refine List.forall_mem_cons.2 ⟨?_, List.forall_mem_cons.2 ⟨?_, List.forall_mem_cons.2
    ⟨?_, List.forall_mem_cons.2 ⟨fun hne => absurd rfl hne, List.forall_mem_cons.2 ⟨?_, nofun⟩⟩⟩⟩⟩
  · exact fun _ _ _ _ _ _ h => field_get_eq (grows_text d) h fun _ _ => rfl
  · exact fun _ _ _ _ _ _ h => field_get_eq (grows_text d) h fun _ _ => rfl
  · exact fun _ _ _ _ _ _ h => field_get_eq (grows_decodeList d) h fun _ _ => rfl
  · exact fun _ _ _ _ _ _ h => log_get_eq (fun _ _ => rfl) h

theorem looksAt_wasm_paths : modulesRecord.LooksAt d "wasm_paths" Settings.wasmPaths := by
  refine ⟨grows_modulesRecord d, ?_, isWord_wasm_paths, by decide⟩
  refine List.forall_mem_cons.2 ⟨fun hne => absurd rfl hne, List.forall_mem_cons.2 ⟨?_, nofun⟩⟩
  exact fun _ _ _ _ _ _ h => field_get_eq (grows_bool d) h fun _ _ => rfl

-- ================================================================ documents

/-- The list that a document has under names: that of the node there, or
none. -/
def ListedAt (d : Document) (names texts : List String) : Prop :=
  (∃ o, d.FoundAt names d.root o)
    ∧ (d.FoundAt names d.root none → texts = [])
    ∧ ∀ n, d.FoundAt names d.root (some n) → Listed d n texts

/-- A list that is not there is empty. -/
theorem listedAt_none {names texts : List String} (h : d.FoundAt names d.root none)
    (htexts : texts = []) : ListedAt d names texts :=
  ⟨⟨none, h⟩, fun _ => htexts, fun _ h' => absurd (h'.unique h) (Option.some_ne_none _)⟩

/-- One that is there is what its node lists. -/
theorem listedAt_some {names texts : List String} {n : Node} (h : d.FoundAt names d.root (some n))
    (hlisted : Listed d n texts) : ListedAt d names texts := by
  refine ⟨⟨some n, h⟩, fun h' => absurd (h.unique h') (Option.some_ne_none _), fun n' h' => ?_⟩
  cases h.unique h'
  exact hlisted

/-- The files to load first are those that the document lists. -/
theorem preload_of_document {x v : Settings} (hx : x.preload = [])
    (h : Cleanly (record.decode d d.root x) s v s') : ListedAt d ["preload"] v.preload := by
  obtain ⟨o, hfound, hfilled⟩ := Record.decode_found looksAt_preload h
  cases o with
  | none => exact listedAt_none (.inl ⟨hfound, rfl⟩) (Eq.trans hfilled hx)
  | some n =>
    obtain ⟨f, hf, x₁, v₁, s₁, s₂, -, hdecode, hget⟩ := hfilled
    cases hf
    obtain ⟨o, s₃, hlist, rfl⟩ := field_cleanly (grows_decodeList d) hdecode
    obtain ⟨texts, rfl, hlisted⟩ := decodeList_cleanly hlist
    exact listedAt_some (.inr ⟨n, hfound, rfl⟩) (hget ▸ hlisted)

/-- So are the search paths, in the part about modules. -/
theorem wasmPaths_of_document {x v : Settings} (hx : x.wasmPaths = [])
    (h : Cleanly (record.decode d d.root x) s v s') :
    ListedAt d ["modules", "wasm_paths"] v.wasmPaths := by
  obtain ⟨o, hfound, hfilled⟩ := Record.decode_found looksAt_modules h
  cases o with
  | none => exact listedAt_none (.inl ⟨hfound, rfl⟩) (Eq.trans hfilled hx)
  | some m =>
    obtain ⟨f, hf, x₁, v₁, s₁, s₂, hx₁, hdecode, hget⟩ := hfilled
    cases hf
    obtain ⟨o, hfound', hfilled'⟩ := Record.decode_found looksAt_wasm_paths hdecode
    cases o with
    | none =>
      refine listedAt_none (.inr ⟨m, hfound, .inl ⟨hfound', rfl⟩⟩) ?_
      exact hget.trans (Eq.trans hfilled' (hx₁.trans hx))
    | some n =>
      obtain ⟨f', hf', x₂, v₂, s₃, s₄, -, hdecode', hget'⟩ := hfilled'
      cases hf'
      obtain ⟨o, s₅, hlist, rfl⟩ := field_cleanly (grows_decodeList d) hdecode'
      obtain ⟨texts, rfl, hlisted⟩ := decodeList_cleanly hlist
      refine listedAt_some (.inr ⟨m, hfound, .inr ⟨n, hfound', rfl⟩⟩) ?_
      rw [hget.trans hget']
      exact hlisted

end

end LispShell.Settings
