import Kerghan.Casing
import Kerghan.Integrations.Impl.Flows

/-!
This module contains which of the labels that are accepted can be stored: the validator does not count all the
characters that the columns have to hold, and normalizing a label can make it longer.
-/

namespace Kerghan.Integrations

open IntegrationsService

/--
The length of the columns `label` and `label_normalized`.
-/
def LABEL_COLUMN_LENGTH : Nat := 100

structure FitsColumns (row : Integration) : Prop where
  label : row.label.toList.length ≤ LABEL_COLUMN_LENGTH
  labelNormalized : row.labelNormalized.toList.length ≤ LABEL_COLUMN_LENGTH

/--
What is promised about a label that is accepted. All calls that create an integration insert a `createdRow`.
-/
structure StoresLabel [Locale] (label : String) : Prop where
  created : ∀ userId provider type uuid credential now id,
    FitsColumns (createdRow userId provider type label uuid credential now id)
  renamed : ∀ row : Integration, FitsColumns { row with label, labelNormalized := normalizeLabel label }
  stable : normalizeLabel (normalizeLabel label) = normalizeLabel label

/--
`toLowerCase` is that of Unicode.
-/
def FullLowerCasing [Locale] [UnicodeData] : Prop :=
  ∀ text, Locale.toLowerCase text = UnicodeData.toLowerCase text

section Normalize

variable [Locale] [UnicodeData] [ClassValidator] {label : String}

omit [Locale] [UnicodeData] in
theorem trim_of_isIntegrationLabel {value : Json} (h : isIntegrationLabel value = some label)
    : trim label = label := by
  cases value with
  | string value =>
    simp only [isIntegrationLabel, Option.ite_none_right_eq_some, Option.some.injEq] at h
    rw [← h.2]
    exact UnicodeData.trim_trim value
  | _ => cases h

omit [ClassValidator] in
theorem length_normalizeLabel (hlocale : FullLowerCasing) (htrim : trim label = label)
    : (normalizeLabel label).toList.length = label.toList.length + label.toList.count 'İ' := by
  rw [normalizeLabel, htrim, hlocale, UnicodeData.length_toLowerCase]

omit [ClassValidator] in
theorem normalizeLabel_stable (hlocale : FullLowerCasing) (htrim : trim label = label)
    : normalizeLabel (normalizeLabel label) = normalizeLabel label := by
  unfold normalizeLabel
  rw [htrim, hlocale label, UnicodeData.trim_toLowerCase htrim, hlocale, UnicodeData.toLowerCase_toLowerCase]

/--
Whatever the validator counts, a label that it accepts is stored exactly if there is room for all of its
characters and for the dots of its `İ`, which become characters of their own.
-/
theorem storesLabel_iff (hlocale : FullLowerCasing) {value : Json} (haccepted : isIntegrationLabel value = some label)
    : StoresLabel label ↔ label.toList.length + label.toList.count 'İ' ≤ LABEL_COLUMN_LENGTH := by
  have htrim := trim_of_isIntegrationLabel haccepted
  have hnormal := length_normalizeLabel hlocale htrim
  rw [← hnormal]
  constructor
  . intro hstores
    have hcreated := hstores.created 0 "" .pat "" ⟨"", none, .pat ⟨.classic, none, true⟩, none, ⟨"", [], [], []⟩⟩ 0 0
    exact hcreated.labelNormalized
  . intro hnormalized
    have hlength : label.toList.length ≤ LABEL_COLUMN_LENGTH := by omega
    exact {
      created := fun _ _ _ _ _ _ _ => ⟨hlength, hnormalized⟩
      renamed := fun _ => ⟨hlength, hnormalized⟩
      stable := normalizeLabel_stable hlocale htrim
    }

end Normalize

section Examples

abbrev lowerCasing [UnicodeData] : Locale where
  toLowerCase := UnicodeData.toLowerCase
  localeCompare _ _ := 0

/--
The matches of `[^\uFE0F\uFE0E][\uFE0F\uFE0E]`.
-/
def presentationSequences (chars : List Char) : Nat :=
  match chars with
  | c :: d :: chars =>
    let selects (c : Char) := c = '\uFE0F' || c = '\uFE0E'
    if !selects c && selects d then presentationSequences chars + 1 else presentationSequences (d :: chars)
  | _ => 0

/--
The length that validator.js documents: a character and its variation selector count as one.
-/
abbrev validatorLength : ClassValidator where
  length text min max :=
    let length := text.toList.length - presentationSequences text.toList
    min ≤ length && length ≤ max

attribute [local instance] UnicodeData.ascii lowerCasing validatorLength

theorem storesLabel_padded : StoresLabel "Work" :=
  (@storesLabel_iff _ _ _ "Work" (fun _ => rfl) (.string " Work ") (by decide +kernel)).mpr (by decide +kernel)

theorem isIntegrationLabel_ofList {chars : List Char} (hspace : ∀ c ∈ chars, isSpace c = false)
    (hmin : LABEL_MIN_LENGTH ≤ chars.length - presentationSequences chars)
    (hmax : chars.length - presentationSequences chars ≤ LABEL_MAX_LENGTH)
    : isIntegrationLabel (.string (String.ofList chars)) = some (String.ofList chars) := by
  have htrim : trim (String.ofList chars) = String.ofList chars := by
    apply trim_eq_self
    rwa [String.toList_ofList]
  simp only [isIntegrationLabel, ClassValidator.length, htrim, String.toList_ofList]
  have haccepts : (decide (LABEL_MIN_LENGTH ≤ chars.length - presentationSequences chars) &&
      decide (chars.length - presentationSequences chars ≤ LABEL_MAX_LENGTH)) = true := by
    rw [Bool.and_eq_true, decide_eq_true_eq, decide_eq_true_eq]
    exact ⟨hmin, hmax⟩
  rw [if_pos haccepts]

/--
A hundred `İ`, which are two hundred characters after normalizing.
-/
def dottedLabel : List Char :=
  List.replicate 100 'İ'

theorem not_storesLabel
    : ¬∀ (locale : Locale) (data : UnicodeData), @FullLowerCasing locale data → ∀ value label,
        isIntegrationLabel value = some label → @StoresLabel locale label := by
  intro h
  have hspace : ∀ c ∈ dottedLabel, isSpace c = false := by
    intro c hc
    rw [List.eq_of_mem_replicate hc]
    decide
  have haccepted := isIntegrationLabel_ofList hspace (by decide) (by decide)
  have hstores := h lowerCasing UnicodeData.ascii (fun _ => rfl) _ _ haccepted
  have hroom := (@storesLabel_iff lowerCasing UnicodeData.ascii _ _ (fun _ => rfl) _ haccepted).mp hstores
  rw [String.toList_ofList] at hroom
  exact absurd hroom (by decide +kernel)

/--
A hundred letters and a variation selector, which is stored but not counted.
-/
def selectedLabel : List Char :=
  List.replicate 100 'a' ++ ['\uFE0F']

example : isIntegrationLabel (.string (String.ofList selectedLabel)) = some (String.ofList selectedLabel) ∧
    ¬selectedLabel.length ≤ LABEL_COLUMN_LENGTH := by
  have hspace : ∀ c ∈ selectedLabel, isSpace c = false := by
    intro c hc
    rcases List.mem_append.mp hc with hletter | hselector
    . rw [List.eq_of_mem_replicate hletter]
      decide
    . rw [List.mem_singleton.mp hselector]
      decide
  exact ⟨isIntegrationLabel_ofList hspace (by decide) (by decide), by decide⟩

end Examples

end Kerghan.Integrations
