import Mathlib.Data.List.Basic
import Mathlib.Data.List.ReduceOption
import Kerghan.Shell.Lines
import Kerghan.Shell.Text

/-!
This module contains the editing of a text by line numbers: the lines stand in an array, a second
array marks the deleted ones, and what is new at the end stands in a third. Arrays of the shell are
sparse, and reading an element that nobody has set ends a script under `set -u`.
-/

namespace Shell

/--
An array, `none` for an element that is not set.
-/
abbrev Slots (α : Type) := List (Option α)

namespace Slots

variable {α : Type}

/--
`${array[i]}`
-/
def get (array : Slots α) (i : Nat) : Option α :=
  array[i]?.join

/--
`array[i]=a`
-/
def assign (array : Slots α) (i : Nat) (a : α) : Slots α :=
  if i < array.length then
    array.set i (some a)
  else
    array ++ List.replicate (i - array.length) none ++ [some a]

/--
`${#array[@]}`
-/
def count (array : Slots α) : Nat :=
  array.countP (·.isSome)

end Slots

structure Draft where
  lines : Slots Text
  del : Slots Bool
  appends : List Text

namespace Draft

def ofLines (lines : List Text) : Draft where
  lines := lines.map some
  del := lines.map fun _ => some false
  appends := []

/--
Delete the line with the number `n`.
-/
def delete (draft : Draft) (n : Nat) : Draft :=
  { draft with del := draft.del.assign (n - 1) true }

/--
Replace the line with the number `n`.
-/
def rewrite (draft : Draft) (n : Nat) (line : Text) : Draft :=
  { draft with lines := draft.lines.assign (n - 1) line }

def append (draft : Draft) (line : Text) : Draft :=
  { draft with appends := draft.appends ++ [line] }

def unset (draft : Draft) (nums : List Nat) : Draft :=
  nums.foldl delete draft

/--
Give a setting that has the lines `nums` one line: the last one is replaced and the others are deleted. If it has
none, the line `template` is replaced, and without that the line is new.
-/
def set (draft : Draft) (nums : List Nat) (template : Option Nat) (line : Text) : Draft :=
  match nums.getLast?, template with
  | some last, _ => (draft.unset (nums.filter (· ≠ last))).rewrite last line
  | none, some template => draft.rewrite template line
  | none, none => draft.append line

/--
What is printed of the position `i`, if both arrays have been set there.
-/
def line (draft : Draft) (i : Nat) : Option (Option Text) :=
  match draft.del.get i with
  | none => none
  | some true => some none
  | some false => (draft.lines.get i).map some

def print (draft : Draft) : Option (List Text) :=
  ((List.range draft.lines.count).mapM draft.line).map fun lines =>
    lines.reduceOption ++ draft.appends

end Draft

namespace Slots

variable {α : Type} {array : Slots α}

@[simp]
theorem get_assign (i j : Nat) (a : α)
    : (array.assign i a).get j = if j = i then some a else array.get j := by
  unfold get assign
  split
  . next hi =>
    by_cases hj : j = i
    . subst hj
      simp [hi]
    . simp [hj, List.getElem?_set_ne (Ne.symm hj)]
  . next hi =>
    by_cases hj : j = i
    . subst hj
      have hlen : array.length + (j - array.length) = j := by omega
      rw [List.getElem?_append_right (by simp; omega)]
      simp [hlen]
    . rw [if_neg hj]
      by_cases hlt : j < array.length
      . rw [List.append_assoc, List.getElem?_append_left hlt]
      . rw [List.getElem?_eq_none (by omega : array.length ≤ j)]
        by_cases hbetween : j < i
        . rw [List.getElem?_append_left (by simp; omega), List.getElem?_append_right (by omega)]
          simp only [List.getElem?_replicate]
          split <;> rfl
        . rw [List.getElem?_eq_none (by simp; omega)]

def Full (array : Slots α) : Prop :=
  ∀ element ∈ array, element.isSome = true

theorem Full.count (hfull : array.Full) : array.count = array.length :=
  List.countP_eq_length.mpr hfull

theorem Full.assign (hfull : array.Full) {i : Nat} (hi : i < array.length) (a : α)
    : (array.assign i a).Full := by
  intro element helement
  rw [Slots.assign, if_pos hi] at helement
  rcases List.mem_or_eq_of_mem_set helement with h | h
  . exact hfull element h
  . simp [h]

theorem length_assign {i : Nat} (hi : i < array.length) (a : α)
    : (array.assign i a).length = array.length := by
  rw [Slots.assign, if_pos hi, List.length_set]

end Slots

namespace Draft

variable {draft : Draft}

structure Sound (draft : Draft) : Prop where
  lines : draft.lines.Full
  del : draft.del.Full
  length : draft.del.length = draft.lines.length

theorem sound_ofLines (lines : List Text) : (ofLines lines).Sound where
  lines := by simp [ofLines, Slots.Full]
  del := by simp [ofLines, Slots.Full]
  length := by simp [ofLines]

theorem Sound.delete (hsound : draft.Sound) {n : Nat} (hn : n - 1 < draft.lines.length)
    : (draft.delete n).Sound where
  lines := hsound.lines
  del := hsound.del.assign (by rw [hsound.length]; exact hn) true
  length := by
    rw [Draft.delete, Slots.length_assign (by rw [hsound.length]; exact hn), hsound.length]

theorem Sound.rewrite (hsound : draft.Sound) {n : Nat} (hn : n - 1 < draft.lines.length) (line : Text)
    : (draft.rewrite n line).Sound where
  lines := hsound.lines.assign hn line
  del := hsound.del
  length := by rw [Draft.rewrite, Slots.length_assign hn, hsound.length]

@[simp]
theorem unset_appends (draft : Draft) (nums : List Nat) : (draft.unset nums).appends = draft.appends := by
  unfold unset
  induction nums generalizing draft with
  | nil => rfl
  | cons n nums ih => exact ih (draft.delete n)

theorem set_of_last {nums : List Nat} {last : Nat} (hlast : nums.getLast? = some last) (template : Option Nat)
    (line : Text)
    : draft.set nums template line = (draft.unset (nums.filter (· ≠ last))).rewrite last line := by
  unfold set
  rw [hlast]

theorem set_of_template (template : Nat) (line : Text)
    : draft.set [] (some template) line = draft.rewrite template line := rfl

theorem line_delete (n i : Nat) : (draft.delete n).line i = if i = n - 1 then some none else draft.line i := by
  unfold line delete
  by_cases hi : i = n - 1
  . simp [hi]
  . simp [hi]

theorem line_rewrite {n : Nat} {old text : Text} (hold : draft.line (n - 1) = some (some old)) (i : Nat)
    : (draft.rewrite n text).line i = if i = n - 1 then some (some text) else draft.line i := by
  have hdel : draft.del.get (n - 1) = some false := by
    unfold line at hold
    split at hold
    . cases hold
    . cases hold
    . next hdel => exact hdel
  unfold line rewrite
  by_cases hi : i = n - 1
  . simp [hi, hdel]
  . simp [hi]

end Draft

section Edits

/--
What becomes of the line with a number: nothing for a line that stays, `some none` for one that is deleted.
-/
abbrev Edits := Nat → Option (Option Text)

/--
What is left after some edits of lines that are counted from `n`.
-/
def Edits.applyFrom (edits : Edits) (lines : List Text) (n : Nat) : List Text :=
  (lines.zipIdx n).filterMap fun (line, n) => (edits n).getD (some line)

def Edits.delete (edits : Edits) (nums : List Nat) : Edits :=
  fun n => if n ∈ nums then some none else edits n

def Edits.rewrite (edits : Edits) (m : Nat) (line : Text) : Edits :=
  fun n => if n = m then some (some line) else edits n

abbrev Edits.apply (edits : Edits) (lines : List Text) : List Text :=
  edits.applyFrom lines 1

theorem mapM_eq_some_map {α β : Type} {f : α → Option β} {g : α → β} {l : List α} (h : ∀ a ∈ l, f a = some (g a))
    : l.mapM f = some (l.map g) := by
  induction l with
  | nil => rfl
  | cons a l ih =>
    rw [List.mapM_cons, h a (List.mem_cons_self ..), ih fun b hb => h b (List.mem_cons_of_mem _ hb)]
    rfl

/--
The draft is made of `lines` by these edits.
-/
structure Draft.Shows (draft : Draft) (lines : List Text) (edits : Edits) : Prop where
  sound : draft.Sound
  length : draft.lines.length = lines.length
  line : ∀ i (hi : i < lines.length), draft.line i = some ((edits (i + 1)).getD (some lines[i]))

namespace Draft.Shows

variable {draft : Draft} {lines : List Text} {edits : Edits}

theorem ofLines (lines : List Text) : (Draft.ofLines lines).Shows lines fun _ => none where
  sound := sound_ofLines lines
  length := List.length_map ..
  line i hi := by simp [Draft.ofLines, Draft.line, Slots.get, hi]

theorem congr {edits' : Edits} (h : draft.Shows lines edits) (heq : ∀ n, edits n = edits' n)
    : draft.Shows lines edits' := by
  rw [← show edits = edits' from funext heq]
  exact h

theorem append (h : draft.Shows lines edits) (line : Text) : (draft.append line).Shows lines edits where
  sound := ⟨h.sound.lines, h.sound.del, h.sound.length⟩
  length := h.length
  line := h.line

theorem delete (h : draft.Shows lines edits) {n : Nat} (hpos : 0 < n) (hn : n ≤ lines.length)
    : (draft.delete n).Shows lines fun m => if m = n then some none else edits m where
  sound := by
    apply h.sound.delete
    rw [h.length]
    omega
  length := h.length
  line := by
    intro i hi
    rw [line_delete]
    by_cases hi' : i = n - 1
    . rw [if_pos hi', if_pos (by omega)]
      rfl
    . rw [if_neg hi', if_neg (by omega)]
      exact h.line i hi

theorem deletes (h : draft.Shows lines edits) {nums : List Nat} (hnums : ∀ n ∈ nums, 0 < n ∧ n ≤ lines.length)
    : (draft.unset nums).Shows lines (edits.delete nums) := by
  unfold Draft.unset Edits.delete
  induction nums generalizing draft edits with
  | nil => exact h.congr fun m => by simp
  | cons n nums ih =>
    have ⟨hpos, hn⟩ := hnums n (List.mem_cons_self ..)
    apply (ih (h.delete hpos hn) fun m hm => hnums m (List.mem_cons_of_mem _ hm)).congr
    intro m
    by_cases hm : m ∈ nums
    . simp [hm]
    . by_cases heq : m = n
      . simp [heq]
      . simp [hm, heq]

theorem rewrite (h : draft.Shows lines edits) {n : Nat} (hpos : 0 < n) (hn : n ≤ lines.length)
    (huntouched : edits n = none) (text : Text)
    : (draft.rewrite n text).Shows lines (edits.rewrite n text) where
  sound := by
    apply h.sound.rewrite
    rw [h.length]
    omega
  length := by
    rw [Draft.rewrite, Slots.length_assign (by rw [h.length]; omega), h.length]
  line := by
    intro i hi
    have hold : draft.line (n - 1) = some (some lines[n - 1]) := by
      rw [h.line (n - 1) (by omega), Nat.sub_add_cancel hpos, huntouched]
      rfl
    rw [line_rewrite hold, Edits.rewrite]
    by_cases hi' : i = n - 1
    . rw [if_pos hi', if_pos (by omega)]
      rfl
    . rw [if_neg hi', if_neg (by omega)]
      exact h.line i hi

theorem print (h : draft.Shows lines edits) : draft.print = some (edits.apply lines ++ draft.appends) := by
  have hlines : (List.range lines.length).mapM draft.line =
      some ((List.range lines.length).map fun i => (edits (i + 1)).getD lines[i]?) := by
    apply mapM_eq_some_map
    intro i hi
    have hlength := List.mem_range.mp hi
    rw [h.line i hlength, List.getElem?_eq_getElem hlength]
  have hzip : (List.range lines.length).map (fun i => (edits (i + 1)).getD lines[i]?)
      = (lines.zipIdx 1).map fun (line, n) => (edits n).getD (some line) := by
    apply List.ext_getElem
    . simp
    . intro i hi hi'
      have hlength : i < lines.length := by simpa using hi
      simp [hlength, Nat.add_comm 1]
  unfold Draft.print
  rw [h.sound.lines.count, h.length, hlines, hzip, Option.map_some]
  have hreduce (options : List (Option Text)) : options.reduceOption = options.filterMap id := rfl
  rw [hreduce, List.filterMap_map]
  rfl

end Draft.Shows

end Edits

end Shell
