import Views.Blocks
import Mathlib.Data.List.DropRight
/-!
# Histories of content blocks

A `BlockEvent` says that a fragment was captured or a text was emitted. `Blocks.Accounts` says how
blocks and the events that led to them belong together: what is emitted for a name is what was
captured for it since it was last emitted, and nothing is emitted twice or left out. Each event
keeps this up (`Accounts.capture`, `Accounts.emit`).

* **What is to be emitted next** is read off the history, by `unread`: the fragments captured for a
  name after the last text that was emitted for it.
* **Order** is kept, since an event that emits nothing for a name adds its fragment at the end
  (`unread_concat`), and one that emits leaves nothing unread (`unread_concat_of_emits`). So what
  was captured before an emission is not emitted again after it.

Nothing here is about templates. Which events a template brings about is said in `Render.Trace`, and
what they come to in a whole render in `Engine.Fragments`.
-/

namespace Views

/-- What is done to content blocks: a fragment is captured for a name, or a text is emitted for one.
The text is that of all fragments together, and may be empty. -/
inductive BlockEvent where
  | captured (name fragment : String)
  | emitted (name text : String)
  deriving DecidableEq, Repr

namespace BlockEvent

variable {name other fragment text : String}

/-- The fragment, if one is captured for a name. -/
def fragmentFor? (name : String) : BlockEvent → Option String
  | captured other fragment => if other = name then some fragment else none
  | emitted _ _ => none

/-- The text, if one is emitted for a name. -/
def textFor? (name : String) : BlockEvent → Option String
  | captured _ _ => none
  | emitted other text => if other = name then some text else none

/-- Whether a text is emitted for a name. -/
def emits (name : String) (event : BlockEvent) : Bool := (event.textFor? name).isSome

@[simp] theorem fragmentFor?_captured_self (name fragment : String) :
    (captured name fragment).fragmentFor? name = some fragment := if_pos rfl

@[simp] theorem fragmentFor?_emitted (name other text : String) :
    (emitted other text).fragmentFor? name = none := rfl

@[simp] theorem textFor?_captured (name other fragment : String) :
    (captured other fragment).textFor? name = none := rfl

@[simp] theorem textFor?_emitted_self (name text : String) :
    (emitted name text).textFor? name = some text := if_pos rfl

/-- What is captured for another name is no fragment of this one. -/
theorem fragmentFor?_captured_of_ne (h : other ≠ name) (fragment : String) :
    (captured other fragment).fragmentFor? name = none := if_neg h

/-- What is emitted for another name is no text of this one. -/
theorem textFor?_emitted_of_ne (h : other ≠ name) (text : String) :
    (emitted other text).textFor? name = none := if_neg h

@[simp] theorem emits_captured (name other fragment : String) :
    (captured other fragment).emits name = false := rfl

@[simp] theorem emits_emitted_self (name text : String) :
    (emitted name text).emits name = true := by
  simp [emits]

/-- An emission for another name does not empty this one. -/
theorem emits_emitted_of_ne (h : other ≠ name) (text : String) :
    (emitted other text).emits name = false := by
  simp [emits, textFor?_emitted_of_ne h]

end BlockEvent

open BlockEvent

/-- The fragments that were captured for a name since a text was last emitted for it, in their
order. They are what the next emission writes. -/
def unread (name : String) (events : List BlockEvent) : List String :=
  (events.rtakeWhile fun event => !event.emits name).filterMap (fragmentFor? name)

section unread

variable {name : String} {events : List BlockEvent} {event : BlockEvent}

@[simp] theorem unread_nil (name : String) : unread name [] = [] := rfl

/-- Once a text is emitted for a name, nothing is left of the name. -/
theorem unread_concat_of_emits (h : event.emits name = true) :
    unread name (events ++ [event]) = [] := by
  simp [unread, h]

/-- Any other event leaves what was left, and adds the fragment if it captures one for the name. -/
theorem unread_concat (h : event.emits name = false) :
    unread name (events ++ [event]) = unread name events ++ (event.fragmentFor? name).toList := by
  unfold unread
  rw [List.rtakeWhile_concat_pos _ _ _ (by simpa using h), List.filterMap_append]
  cases hfragment : event.fragmentFor? name <;> simp [hfragment]

/-- A fragment is left exactly if one was captured and nothing was emitted for its name after. -/
theorem unread_ne_nil_iff : unread name events ≠ [] ↔ ∃ earlier fragment later,
    events = earlier ++ .captured name fragment :: later ∧
      ∀ event ∈ later, event.emits name = false := by
  constructor
  · induction events using List.reverseRecOn with
    | nil => simp
    | append_singleton events event ih =>
      intro h
      cases hemits : event.emits name with
      | true => exact absurd (unread_concat_of_emits hemits) h
      | false =>
        by_cases hunread : unread name events = []
        · rw [unread_concat hemits, hunread] at h
          cases event with
          | captured other fragment =>
            by_cases he : other = name
            · exact ⟨events, fragment, [], by rw [he], by simp⟩
            · simp [fragmentFor?_captured_of_ne he] at h
          | emitted => simp at h
        · obtain ⟨earlier, fragment, later, rfl, hlater⟩ := ih hunread
          refine ⟨earlier, fragment, later ++ [event], by simp, ?_⟩
          simpa [or_imp, forall_and] using ⟨hlater, hemits⟩
  · rintro ⟨earlier, fragment, later, rfl, hlater⟩
    induction later using List.reverseRecOn with
    | nil =>
      rw [unread_concat (emits_captured _ _ _)]
      simp
    | append_singleton later event ih =>
      have hunread := ih fun event hevent => hlater event (List.mem_append_left _ hevent)
      have hemits := hlater event (by simp)
      rw [← List.cons_append, ← List.append_assoc, unread_concat hemits]
      exact List.append_ne_nil_of_left_ne_nil hunread _

end unread

namespace Blocks

/-- How blocks and the events that led to them belong together. -/
structure Accounts (blocks : Blocks) (events : List BlockEvent) : Prop where
  /-- What is emitted for a name is what was captured for it since it was last emitted. -/
  emitted_eq : ∀ {earlier later name text}, events = earlier ++ .emitted name text :: later →
    text = String.intercalate "\n" (unread name earlier)
  pending_eq : ∀ name, blocks.pending name = unread name events
  /-- What was captured for a name is one batch for each time the name was emitted, and then what
  is still to be emitted. -/
  batches : ∀ name, ∃ batches : List (List String),
    events.filterMap (textFor? name) = batches.map (String.intercalate "\n") ∧
      events.filterMap (fragmentFor? name) = batches.flatten ++ blocks.pending name
  hasPending_iff : ∀ name, blocks.hasPending name = true ↔ ∃ earlier fragment later,
    events = earlier ++ .captured name fragment :: later ∧
      ∀ event ∈ later, event.emits name = false

namespace Accounts

variable {blocks : Blocks} {events : List BlockEvent}

/-- If what is pending is what is unread, a name has something pending just if a fragment was
captured and nothing emitted after. -/
theorem hasPending_iff_of_pending_eq (h : ∀ name, blocks.pending name = unread name events)
    (name : String) : blocks.hasPending name = true ↔ ∃ earlier fragment later,
      events = earlier ++ .captured name fragment :: later ∧
        ∀ event ∈ later, event.emits name = false := by
  rw [← unread_ne_nil_iff, ← h name]
  simp [hasPending]

/-- Before anything is done there is nothing in the blocks. -/
theorem nil : ({} : Blocks).Accounts [] where
  emitted_eq h := by simp at h
  pending_eq _ := rfl
  batches _ := ⟨[], rfl, rfl⟩
  hasPending_iff := hasPending_iff_of_pending_eq fun _ => rfl

/-- What holds of each text that was emitted holds with one more event if it holds of that event. -/
theorem emitted_eq_concat (h : blocks.Accounts events) {event : BlockEvent}
    (hevent : ∀ {name text}, event = .emitted name text →
      text = String.intercalate "\n" (unread name events))
    {earlier later : List BlockEvent} {name text : String}
    (he : events ++ [event] = earlier ++ .emitted name text :: later) :
    text = String.intercalate "\n" (unread name earlier) := by
  rcases List.eq_nil_or_concat later with rfl | ⟨later, last, rfl⟩
  · obtain ⟨rfl, hlast⟩ := List.append_inj' he rfl
    exact hevent (List.singleton_inj.mp hlast)
  · rw [List.concat_eq_append, ← List.cons_append, ← List.append_assoc] at he
    exact h.emitted_eq (List.append_inj' he rfl).1

/-- A capture is accounted for by the event that it is. -/
theorem capture (h : blocks.Accounts events) (name fragment : String) :
    (blocks.capture name fragment).Accounts (events ++ [.captured name fragment]) := by
  have hpending : ∀ other, (blocks.capture name fragment).pending other =
      unread other (events ++ [.captured name fragment]) := by
    intro other
    rw [unread_concat (emits_captured _ _ _), ← h.pending_eq]
    by_cases he : other = name
    · subst he
      simp
    · simp [pending_capture_of_ne he, fragmentFor?_captured_of_ne (Ne.symm he)]
  refine ⟨h.emitted_eq_concat (by simp), hpending, fun other => ?_,
    hasPending_iff_of_pending_eq hpending⟩
  obtain ⟨batches, htexts, hfragments⟩ := h.batches other
  refine ⟨batches, by simp [htexts], ?_⟩
  rw [List.filterMap_append, hfragments]
  by_cases he : other = name
  · subst he
    simp
  · simp [pending_capture_of_ne he, fragmentFor?_captured_of_ne (Ne.symm he)]

/-- So is an emission: its text is what was unread, and one more batch is complete. -/
theorem emit (h : blocks.Accounts events) (name : String) :
    (blocks.emit name).2.Accounts (events ++ [.emitted name (blocks.emit name).1]) := by
  have htext : (blocks.emit name).1 = String.intercalate "\n" (unread name events) :=
    congrArg (String.intercalate "\n") (h.pending_eq name)
  have hpending : ∀ other, (blocks.emit name).2.pending other =
      unread other (events ++ [.emitted name (blocks.emit name).1]) := by
    intro other
    by_cases he : other = name
    · subst he
      rw [unread_concat_of_emits (emits_emitted_self _ _), pending_emit_self]
    · rw [unread_concat (emits_emitted_of_ne (Ne.symm he) _), pending_emit_of_ne he]
      simp [h.pending_eq]
  refine ⟨h.emitted_eq_concat (by rintro _ _ ⟨⟩; exact htext), hpending, fun other => ?_,
    hasPending_iff_of_pending_eq hpending⟩
  obtain ⟨batches, htexts, hfragments⟩ := h.batches other
  by_cases he : other = name
  · subst he
    refine ⟨batches ++ [blocks.pending other], ?_, ?_⟩
    · simp [htexts, Blocks.emit]
    · simp [hfragments]
  · refine ⟨batches, ?_, ?_⟩
    · simp [htexts, textFor?_emitted_of_ne (Ne.symm he)]
    · simp [hfragments, pending_emit_of_ne he]

end Accounts
end Blocks
end Views
