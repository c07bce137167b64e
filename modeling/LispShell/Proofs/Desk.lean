/-
Sessions at one desk, and what a run for one of them changes.

A run changes the frames, the host, the cells, the import table of its
session and its count, and nothing else: where the sessions have their roots and their
tables stays as it is (`session_putBack`). Running on after a run is
running on from the desk as it was left (`machine_putBack`,
`putBack_putBack`); only the journal and the questions start anew. A fork
comes after the sessions there are and leaves them as they are.

Of the journal of a run, what is printed and written shows
(`Event.isShown`); the rest is for the record.
-/
import LispShell.Desk

namespace LispShell

-- ====================================================== what shows

/-- Whether an event shows at the console. -/
def Event.isShown : Event → Bool
  | .printed _ | .wrote _ => true
  | _ => false

/-- What is printed is among the events that show. -/
theorem Event.printedText_shown (events : List Event) :
    Event.printedText (events.filter Event.isShown) = Event.printedText events := by
  induction events with
  | nil => rfl
  | cons e rest ih =>
    cases e with
    | printed line => exact congrArg (line ++ "\n" ++ ·) ih
    | _ => exact ih

/-- What is written is among the events that show. -/
theorem Event.writtenText_shown (events : List Event) :
    Event.writtenText (events.filter Event.isShown) = Event.writtenText events := by
  induction events with
  | nil => rfl
  | cons e rest ih =>
    cases e with
    | wrote text => exact congrArg (text ++ ·) ih
    | _ => exact ih

/-- What is written in two parts is written one after the other. -/
theorem Event.writtenText_append (events further : List Event) :
    Event.writtenText (events ++ further)
      = Event.writtenText events ++ Event.writtenText further := by
  induction events with
  | nil => exact (String.empty_append ..).symm
  | cons e rest ih =>
    cases e with
    | wrote text =>
      show text ++ Event.writtenText (rest ++ further)
        = text ++ Event.writtenText rest ++ Event.writtenText further
      rw [ih, String.append_assoc]
    | _ => exact ih

namespace Desk

variable {σ : Type} {d : Desk σ} {s t : Nat}

-- ====================================================== runs

/-- The session exists, and so does its import table. -/
structure IsSession (d : Desk σ) (s : Nat) : Prop where
  inside : s < d.sessions.length
  table : (d.session s).table < d.tables.length

/-- A session that exists is the one at its place. -/
theorem session_of_lt (h : s < d.sessions.length) : d.session s = d.sessions[s] := by
  unfold session
  rw [List.getD_eq_getElem?_getD, List.getElem?_eq_getElem h]
  rfl

/-- A run that ends with an answer puts back the machine it ends with. -/
theorem run_done {α : Type} {x : Eval σ α} {answer : Except Failure α} {m : Machine σ}
    (h : x (d.machine s) = .done answer m) :
    d.run s x = some ⟨answer, m.journal.reverse, d.putBack s m⟩ := by
  unfold run
  rw [h]

/-- A run without an answer leaves nothing. -/
theorem run_spent {α : Type} {x : Eval σ α} (h : x (d.machine s) = .spent) : d.run s x = none := by
  unfold run
  rw [h]

-- ====================================================== putting back

/-- Only the count of the session changes. -/
theorem session_putBack (d : Desk σ) (s : Nat) (m : Machine σ) (t : Nat) :
    (d.putBack s m).session t
      = if t = s ∧ s < d.sessions.length then { d.session s with made := m.made }
        else d.session t := by
  unfold session putBack
  simp only [List.getD_eq_getElem?_getD, List.getElem?_modify]
  by_cases hts : t = s
  · subst hts
    by_cases hlt : t < d.sessions.length
    · simp [hlt]
    · simp [hlt]
  · simp [hts, Ne.symm hts]

/-- No run moves the root frame of a session. -/
theorem root_putBack (d : Desk σ) (s : Nat) (m : Machine σ) (t : Nat) :
    ((d.putBack s m).session t).root = (d.session t).root := by
  rw [session_putBack]
  split
  · next h => rw [h.1]
  · rfl

/-- No run gives a session another import table. -/
theorem tableOf_putBack (d : Desk σ) (s : Nat) (m : Machine σ) (t : Nat) :
    ((d.putBack s m).session t).table = (d.session t).table := by
  rw [session_putBack]
  split
  · next h => rw [h.1]
  · rfl

/-- The count of the session is that of the machine. -/
theorem made_putBack (h : s < d.sessions.length) (m : Machine σ) :
    ((d.putBack s m).session s).made = m.made := by
  rw [session_putBack, if_pos ⟨rfl, h⟩]

/-- A run ends no session. -/
theorem IsSession.putBack (h : d.IsSession t) (s : Nat) (m : Machine σ) :
    (d.putBack s m).IsSession t where
  inside := by
    show t < (d.sessions.modify s _).length
    rw [List.length_modify]
    exact h.inside
  table := by
    rw [tableOf_putBack]
    show _ < (d.tables.set _ _).length
    rw [List.length_set]
    exact h.table

/-- The import table of the session is that of the machine. -/
theorem table_putBack (h : d.IsSession s) (m : Machine σ) :
    (d.putBack s m).table s = m.imports := by
  unfold table
  rw [tableOf_putBack]
  show (d.tables.set (d.session s).table m.imports).getD (d.session s).table ⟨[], []⟩ = _
  rw [List.getD_eq_getElem?_getD, List.getElem?_set_self h.table]
  rfl

/-- The next run starts where the last one ended. -/
theorem machine_putBack (h : d.IsSession s) (m : Machine σ) :
    (d.putBack s m).machine s = { m with queries := 0, journal := [] } := by
  show Machine.mk m.frames ((d.putBack s m).table s) m.host m.cells
    ((d.putBack s m).session s).made 0 [] = _
  rw [table_putBack h, made_putBack h.inside]

/-- A run that changes nothing leaves the desk as it was. -/
theorem putBack_machine (h : d.IsSession s) : d.putBack s (d.machine s) = d := by
  have htables : d.tables.set (d.session s).table (d.table s) = d.tables := by
    unfold table
    rw [List.getD_eq_getElem?_getD, List.getElem?_eq_getElem h.table]
    exact List.set_getElem_self h.table
  have hsessions : (d.sessions.modify s fun x => { x with made := (d.session s).made })
      = d.sessions := by
    rw [session_of_lt h.inside]
    refine List.ext_getElem? fun t => ?_
    rw [List.getElem?_modify]
    by_cases hts : s = t
    · subst hts
      rw [List.getElem?_eq_getElem h.inside]
      simp
    · simp [hts]
  show Desk.mk d.frames (d.tables.set (d.session s).table (d.table s))
    (d.sessions.modify s fun x => { x with made := (d.session s).made }) d.host d.cells = d
  rw [htables, hsessions]

/-- What a later run leaves replaces what an earlier one left. -/
theorem putBack_putBack (d : Desk σ) (s : Nat) (m m' : Machine σ) :
    (d.putBack s m).putBack s m' = d.putBack s m' := by
  have htables : (d.tables.set (d.session s).table m.imports).set
      ((d.putBack s m).session s).table m'.imports
        = d.tables.set (d.session s).table m'.imports := by
    rw [tableOf_putBack, List.set_set]
  have hsessions : (d.sessions.modify s fun x => { x with made := m.made }).modify s
      (fun x => { x with made := m'.made })
        = d.sessions.modify s fun x => { x with made := m'.made } := by
    rw [List.modify_modify_eq]
    rfl
  show Desk.mk _ _ _ _ _ = Desk.mk _ _ _ _ _
  rw [← htables, ← hsessions]
  rfl

-- ====================================================== forks

theorem length_fork (d : Desk σ) (s : Nat) :
    (d.fork s).sessions.length = d.sessions.length + 1 :=
  List.length_append

/-- A fork leaves the sessions before it as they are. -/
theorem session_fork (h : t < d.sessions.length) (s : Nat) :
    (d.fork s).session t = d.session t := by
  show (d.sessions ++ _).getD t _ = d.sessions.getD t _
  rw [List.getD_eq_getElem?_getD, List.getD_eq_getElem?_getD, List.getElem?_append_left h]

/-- The new session has the copied frame, the table of its source and made
nothing yet. -/
theorem session_fork_new (d : Desk σ) (s : Nat) :
    (d.fork s).session d.sessions.length
      = ⟨(d.frames.copy (d.session s).root).2, (d.session s).table, 0⟩ := by
  show (d.sessions ++ _).getD d.sessions.length _ = _
  rw [List.getD_eq_getElem?_getD, List.getElem?_concat_length]
  rfl

end Desk

end LispShell
