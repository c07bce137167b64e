/-
Decoding without a complaint.

Decoding goes on after a complaint, but a document counts as decoded only
if there was none. Complaints are never taken back (`Grows`), so a
decoding that ends with as many as it began with made none on the way
either: it can be taken apart into steps that made none (`Cleanly.bind`).
-/
import LispShell.Yaml.Decode

namespace LispShell.Yaml.Decode

variable {α β : Type}

/-- Decoding only adds to the complaints. -/
def Grows (m : Decode α) : Prop :=
  ∀ s v s', m s = .ok (v, s') → s.complaints <+: s'.complaints

/-- Decoding comes to a value, and there is nothing to complain about. -/
structure Cleanly (m : Decode α) (s : Decoding) (v : α) (s' : Decoding) : Prop where
  result : m s = .ok (v, s')
  complaints_eq : s'.complaints = s.complaints

/-- A sequence succeeds if both of its parts do. -/
theorem bind_eq_ok {m : Decode α} {f : α → Decode β} {s s' : Decoding} {v : β}
    (h : (m >>= f) s = .ok (v, s')) :
    ∃ a s₁, m s = .ok (a, s₁) ∧ f a s₁ = .ok (v, s') := by
  have hbind : (m >>= f) s = (m s >>= fun p => f p.1 p.2) := rfl
  rw [hbind] at h
  cases hm : m s with
  | error text =>
    rw [hm] at h
    cases h
  | ok p =>
    rw [hm] at h
    exact ⟨p.1, p.2, rfl, h⟩

-- ========================================================== nothing is lost

theorem grows_pure (v : α) : Grows (pure v : Decode α) := by
  intro s w s' h
  cases h
  exact List.prefix_refl _

theorem grows_fail (text : String) : Grows (fail text : Decode α) := by
  intro s w s' h
  cases h

theorem grows_get : Grows (get : Decode Decoding) := by
  intro s v s' h
  cases h
  exact List.prefix_refl _

theorem grows_modify (f : Decoding → Decoding) (hf : ∀ s, s.complaints <+: (f s).complaints) :
    Grows (modify f : Decode PUnit) := by
  intro s v s' h
  cases h
  exact hf s

theorem Grows.bind {m : Decode α} {f : α → Decode β} (hm : Grows m) (hf : ∀ a, Grows (f a)) :
    Grows (m >>= f) := by
  intro s v s' h
  obtain ⟨a, s₁, ha, hv⟩ := bind_eq_ok h
  exact (hm s a s₁ ha).trans (hf a s₁ v s' hv)

/-- Growing is closed under loops. -/
theorem grows_forIn (items : List α) (b : β) {step : α → β → Decode (ForInStep β)}
    (h : ∀ a b, Grows (step a b)) : Grows (forIn items b step) := by
  induction items generalizing b with
  | nil => exact grows_pure b
  | cons a items ih =>
    rw [List.forIn_cons]
    refine (h a b).bind fun next => ?_
    cases next with
    | done b => exact grows_pure b
    | yield b => exact ih b

theorem grows_complainAll (complaints : Complaints) : Grows (complainAll complaints) :=
  grows_modify _ fun _ => List.prefix_append _ _

theorem grows_complain (line : Nat) (text : String) : Grows (complain line text) :=
  grows_complainAll _

theorem grows_wrongType (n : Node) (type : String) : Grows (wrongType n type) :=
  grows_complain _ _

/-- Visiting a node only counts it, or fails. -/
theorem grows_visit : Grows visit := by
  refine (grows_modify Decoding.count fun _ => List.prefix_refl _).bind fun _ =>
    grows_get.bind fun s => ?_
  split
  · exact grows_fail _
  · exact grows_pure _

theorem grows_depth (depth : Decoding → Nat) :
    Grows (modify fun s : Decoding => { s with depth := depth s } : Decode PUnit) :=
  grows_modify _ fun _ => List.prefix_refl _

/-- Going down into a node and back up. -/
theorem grows_inside {m : Decode α} (hm : Grows m) : Grows (inside m) :=
  (grows_depth fun s => s.depth + 1).bind fun _ => hm.bind fun v =>
    (grows_depth fun s => s.depth - 1).bind fun _ => grows_pure v

/-- Following an alias. -/
theorem grows_following (d : Document) (n : Node) {decode : Node → Decode α}
    (h : ∀ n, Grows (decode n)) : Grows (following d n decode) := by
  refine grows_visit.bind fun _ => ?_
  split
  · exact grows_inside (grows_visit.bind fun _ => h _)
  · exact h _

/-- What is decoded apart leaves its complaints behind. -/
theorem grows_apart (m : Decode α) : Grows (apart m) := by
  intro s v s' h
  unfold apart at h
  split at h
  · cases h
    exact List.prefix_refl _
  · cases h

theorem grows_meaning (tag s : String) : Grows (meaning tag s) := by
  unfold meaning
  split
  · exact grows_pure _
  · exact grows_fail _

theorem grows_content (tag s : String) : Grows (content tag s) := by
  refine (grows_meaning tag s).bind fun m => ?_
  split
  · exact grows_pure _
  · split
    · exact grows_pure _
    · exact grows_fail _

theorem grows_complainRepeats (keys : List Node) : Grows (complainRepeats keys) := by
  induction keys with
  | nil => exact grows_pure _
  | cons k rest ih =>
    refine (grows_forIn rest _ fun other _ => ?_).bind fun _ => ih
    split
    · exact (grows_complain _ _).bind fun _ => grows_pure _
    · exact grows_pure _

theorem grows_distinctKeys (entries : List (Node × Node)) : Grows (distinctKeys entries) :=
  grows_get.bind fun _ => (grows_complainRepeats _).bind fun _ =>
    grows_get.bind fun _ => grows_pure _

theorem grows_wrongCollection (n : Node) (type : String) : Grows (wrongCollection n type) := by
  unfold wrongCollection
  split
  · refine (grows_distinctKeys _).bind fun distinct => ?_
    split
    · exact grows_wrongType _ _
    · exact grows_pure _
  · exact grows_wrongType _ _

theorem grows_text (d : Document) (n : Node) : Grows (text d n) := by
  refine grows_following d n fun n => ?_
  split
  · refine (grows_content _ _).bind fun c => ?_
    split <;> exact grows_pure _
  · exact (grows_wrongCollection _ _).bind fun _ => grows_pure _

theorem grows_bool (d : Document) (n : Node) : Grows (bool d n) := by
  refine grows_following d n fun n => ?_
  split
  · refine (grows_content _ _).bind fun c => ?_
    split
    · exact grows_pure _
    · exact grows_pure _
    · split
      · exact grows_pure _
      · exact (grows_wrongType _ _).bind fun _ => grows_pure _
  · exact (grows_wrongCollection _ _).bind fun _ => grows_pure _

theorem grows_keyName (d : Document) (n : Node) : Grows (keyName d n) := by
  refine grows_following d n fun n => ?_
  split
  · refine (grows_content _ _).bind fun c => ?_
    split <;> exact grows_pure _
  · exact (grows_distinctKeys _).bind fun _ => grows_pure _
  · exact grows_pure _

-- ============================================================ taking apart

namespace Cleanly

/-- A clean decoding is made of clean ones. -/
theorem bind {m : Decode α} {f : α → Decode β} (hm : Grows m) (hf : ∀ a, Grows (f a))
    {s s' : Decoding} {v : β} (h : Cleanly (m >>= f) s v s') :
    ∃ a s₁, Cleanly m s a s₁ ∧ Cleanly (f a) s₁ v s' := by
  obtain ⟨a, s₁, ha, hv⟩ := bind_eq_ok h.result
  have hfirst : s.complaints <+: s₁.complaints := hm s a s₁ ha
  have hsecond : s₁.complaints <+: s.complaints := h.complaints_eq ▸ hf a s₁ v s' hv
  have hsame : s₁.complaints = s.complaints :=
    hsecond.eq_of_length (Nat.le_antisymm hsecond.length_le hfirst.length_le)
  exact ⟨a, s₁, ⟨ha, hsame⟩, ⟨hv, h.complaints_eq.trans hsame.symm⟩⟩

/-- A value that is given is what is decoded. -/
theorem eq_of_pure {a v : α} {s s' : Decoding} (h : Cleanly (pure a : Decode α) s v s') :
    v = a := by
  cases h.result
  rfl

theorem not_fail {text : String} {v : α} {s s' : Decoding}
    (h : Cleanly (fail text : Decode α) s v s') : False := by
  cases h.result

/-- Cleanly there is nothing to complain about. -/
theorem eq_nil_of_complainAll {complaints : Complaints} {v : Unit} {s s' : Decoding}
    (h : Cleanly (complainAll complaints) s v s') : complaints = [] := by
  have hcomplaints := h.complaints_eq
  cases h.result
  exact List.append_right_eq_self.1 hcomplaints

/-- So a complaint is never clean. -/
theorem not_complain {line : Nat} {text : String} {v : Unit} {s s' : Decoding}
    (h : Cleanly (complain line text) s v s') : False :=
  List.cons_ne_nil _ _ h.eq_nil_of_complainAll

/-- Cleanly the keys are distinct. -/
theorem distinctKeys_eq_true {entries : List (Node × Node)} {distinct : Bool} {s s' : Decoding}
    (h : Cleanly (distinctKeys entries) s distinct s') : distinct = true := by
  obtain ⟨s₀, s₁, hget, hrest⟩ := bind_eq_ok h.result
  obtain ⟨u, s₂, hkeys, hrest⟩ := bind_eq_ok hrest
  obtain ⟨s₃, s₄, hget', hrest⟩ := bind_eq_ok hrest
  cases hget
  cases hget'
  cases hrest
  exact beq_iff_eq.2 (congrArg List.length h.complaints_eq)

/-- What is clean inside of a node is clean by itself. -/
theorem inside {m : Decode α} (hm : Grows m) {v : α} {s s' : Decoding}
    (h : Cleanly (Decode.inside m) s v s') : ∃ s₁ s₂, Cleanly m s₁ v s₂ := by
  have hback : ∀ v : α, Grows (do
      modify fun s : Decoding => { s with depth := s.depth - 1 }
      return v : Decode α) := fun v =>
    (grows_depth fun s => s.depth - 1).bind fun _ => grows_pure v
  obtain ⟨u, s₁, -, h⟩ := h.bind (grows_depth fun s => s.depth + 1) fun _ => hm.bind hback
  obtain ⟨w, s₂, hm', h⟩ := h.bind hm hback
  obtain ⟨u, s₃, -, h⟩ := h.bind (grows_depth fun s => s.depth - 1) fun _ => grows_pure w
  rw [h.eq_of_pure]
  exact ⟨s₁, s₂, hm'⟩

/-- What is decoded apart is decoded cleanly if it gave no complaints. -/
theorem apart {m : Decode α} {v : α} {s s' : Decoding}
    (h : Cleanly (Decode.apart m) s (v, []) s') : ∃ s₁, Cleanly m .start v s₁ := by
  have hresult := h.result
  unfold Decode.apart at hresult
  split at hresult
  · next w own hm =>
    simp only [Except.ok.injEq, Prod.mk.injEq] at hresult
    obtain ⟨⟨rfl, hcomplaints⟩, -⟩ := hresult
    exact ⟨own, hm, hcomplaints⟩
  · cases hresult

/-- What is decoded is what the node stands for. -/
theorem following {d : Document} {n : Node} {decode : Node → Decode α}
    (hdecode : ∀ n, Grows (decode n)) {v : α} {s s' : Decoding}
    (h : Cleanly (Decode.following d n decode) s v s') :
    ∃ s₁ s₂, Cleanly (decode (d.target n)) s₁ v s₂ := by
  cases n with
  | reference line name place number =>
    obtain ⟨u, s₁, -, h⟩ := h.bind grows_visit fun _ =>
      grows_inside (grows_visit.bind fun _ => hdecode _)
    obtain ⟨s₂, s₃, h⟩ := h.inside (grows_visit.bind fun _ => hdecode _)
    obtain ⟨u, s₄, -, h⟩ := h.bind grows_visit fun _ => hdecode _
    exact ⟨_, _, h⟩
  | _ =>
    obtain ⟨u, s₁, -, h⟩ := h.bind grows_visit fun _ => hdecode _
    exact ⟨_, _, h⟩

end Cleanly

end LispShell.Yaml.Decode
