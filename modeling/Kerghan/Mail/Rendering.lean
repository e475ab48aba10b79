import Mathlib.Data.List.TakeWhile
import Kerghan.Except
import Kerghan.Mail.Impl.RenderTemplate

/-!
This module contains the proof that rendering a template replaces its placeholders, once each and nothing else.
-/

namespace Kerghan.Mail

section Reference

/--
`{{ key }}` with any white space around the key.
-/
structure IsPlaceholder (source key : Text) : Prop where
  nonempty : key ≠ []
  chars : ∀ c ∈ key, isKeyChar c = true
  source : ∃ before after, (∀ c ∈ before, isSpace c = true) ∧ (∀ c ∈ after, isSpace c = true) ∧
    source = '{' :: '{' :: (before ++ key ++ after ++ ['}', '}'])

inductive Segment where
  | literal (c : Char)
  | placeholder (source key : Text)
  deriving DecidableEq, Repr

def Segment.source : Segment → Text
  | .literal c => [c]
  | .placeholder source _ => source

inductive Splits : Text → List Segment → Prop where
  | nil : Splits [] []
  | placeholder {source key rest : Text} {segments : List Segment} (hsource : IsPlaceholder source key)
    (hrest : Splits rest segments)
    : Splits (source ++ rest) (.placeholder source key :: segments)
  | literal {c : Char} {text : Text} {segments : List Segment}
    (hnone : ∀ source key rest, IsPlaceholder source key → c :: text ≠ source ++ rest)
    (hrest : Splits text segments)
    : Splits (c :: text) (.literal c :: segments)

/--
What a segment becomes, if its variable is given. The values are shown with `f`.
-/
def Segment.value (variablesMap : Record Text) (f : Text → Text) : Segment → Option Text
  | .literal c => some [c]
  | .placeholder _ key => (variablesMap.lookup key).map f

def Segment.isMissing (variablesMap : Record Text) : Segment → Bool
  | .literal _ => false
  | .placeholder _ key => (variablesMap.lookup key).isNone

def replaced (variablesMap : Record Text) (f : Text → Text) (segments : List Segment) : Option Text :=
  (segments.mapM (Segment.value variablesMap f)).map List.flatten

def ENTITIES : List Text :=
  ["&amp;".toList, "&lt;".toList, "&gt;".toList, "&quot;".toList, "&#39;".toList]

def unescapeHtml : Text → Text
  | '&' :: 'a' :: 'm' :: 'p' :: ';' :: text => '&' :: unescapeHtml text
  | '&' :: 'l' :: 't' :: ';' :: text => '<' :: unescapeHtml text
  | '&' :: 'g' :: 't' :: ';' :: text => '>' :: unescapeHtml text
  | '&' :: 'q' :: 'u' :: 'o' :: 't' :: ';' :: text => '"' :: unescapeHtml text
  | '&' :: '#' :: '3' :: '9' :: ';' :: text => '\'' :: unescapeHtml text
  | c :: text => c :: unescapeHtml text
  | [] => []

end Reference

section Escape

theorem unescapeHtml_cons {c : Char} (hc : c ≠ '&') (text : Text)
    : unescapeHtml (c :: text) = c :: unescapeHtml text := by
  rw [unescapeHtml]
  all_goals simp [hc]

theorem escapeHtml_cases (c : Char)
    : (HTML_ESCAPES c ∈ ENTITIES ∧ ∀ text, unescapeHtml (HTML_ESCAPES c ++ text) = c :: unescapeHtml text) ∨
        HTML_ESCAPES c = [c] ∧ c ≠ '&' ∧ c ≠ '<' ∧ c ≠ '>' ∧ c ≠ '"' ∧ c ≠ '\'' := by
  unfold HTML_ESCAPES
  split
  . next h => exact Or.inl ⟨by simp [ENTITIES], fun text => by rw [h]; rfl⟩
  . next hamp =>
    split
    . next h => exact Or.inl ⟨by simp [ENTITIES], fun text => by rw [h]; rfl⟩
    . next hlt =>
      split
      . next h => exact Or.inl ⟨by simp [ENTITIES], fun text => by rw [h]; rfl⟩
      . next hgt =>
        split
        . next h => exact Or.inl ⟨by simp [ENTITIES], fun text => by rw [h]; rfl⟩
        . next hquot =>
          split
          . next h => exact Or.inl ⟨by simp [ENTITIES], fun text => by rw [h]; rfl⟩
          . next hapos => exact Or.inr ⟨rfl, hamp, hlt, hgt, hquot, hapos⟩

theorem unescapeHtml_escapeHtml (value : Text) : unescapeHtml (escapeHtml value) = value := by
  induction value with
  | nil => rfl
  | cons c value ih =>
    have hcons : escapeHtml (c :: value) = HTML_ESCAPES c ++ escapeHtml value := rfl
    rw [hcons]
    cases escapeHtml_cases c with
    | inl hentity => rw [hentity.2, ih]
    | inr hplain => rw [hplain.1, List.singleton_append, unescapeHtml_cons hplain.2.1, ih]

theorem not_mem_entities {entity : Text} (hentity : entity ∈ ENTITIES)
    : ∃ rest, entity = '&' :: rest ∧ ∀ c ∈ rest, c ≠ '&' ∧ c ≠ '<' ∧ c ≠ '>' ∧ c ≠ '"' ∧ c ≠ '\'' := by
  simp only [ENTITIES, List.mem_cons, List.not_mem_nil, or_false] at hentity
  rcases hentity with rfl | rfl | rfl | rfl | rfl
  . exact ⟨"amp;".toList, rfl, by simp⟩
  . exact ⟨"lt;".toList, rfl, by simp⟩
  . exact ⟨"gt;".toList, rfl, by simp⟩
  . exact ⟨"quot;".toList, rfl, by simp⟩
  . exact ⟨"#39;".toList, rfl, by simp⟩

theorem escapeHtml_chars (value : Text) : ∀ c ∈ escapeHtml value, c ≠ '<' ∧ c ≠ '>' ∧ c ≠ '"' ∧ c ≠ '\'' := by
  intro c hc
  have ⟨d, _, hd⟩ := List.mem_flatMap.mp hc
  cases escapeHtml_cases d with
  | inl hentity =>
    have ⟨rest, hrest, hchars⟩ := not_mem_entities hentity.1
    rw [hrest] at hd
    rcases List.mem_cons.mp hd with hamp | hmem
    . rw [hamp]
      decide
    . exact (hchars c hmem).2
  | inr hplain =>
    rw [hplain.1] at hd
    rw [List.mem_singleton.mp hd]
    exact hplain.2.2

theorem escapeHtml_ampersands {value before after : Text} (h : escapeHtml value = before ++ '&' :: after)
    : ∃ entity ∈ ENTITIES, entity <+: '&' :: after := by
  induction value generalizing before with
  | nil => simp [escapeHtml] at h
  | cons c value ih =>
    have hcons : escapeHtml (c :: value) = HTML_ESCAPES c ++ escapeHtml value := rfl
    rw [hcons, List.append_eq_append_iff] at h
    rcases h with ⟨middle, hbefore, hvalue⟩ | ⟨middle, hescaped, hafter⟩
    . exact ih hvalue
    . cases middle with
      | nil => exact @ih [] hafter.symm
      | cons d middle =>
        rw [List.cons_append, List.cons.injEq] at hafter
        obtain ⟨rfl, hafter⟩ := hafter
        cases escapeHtml_cases c with
        | inl hentity =>
          have ⟨rest, hrest, hchars⟩ := not_mem_entities hentity.1
          refine ⟨_, hentity.1, ?_⟩
          -- The ampersand is the one that the entity starts with.
          cases before with
          | nil => exact ⟨escapeHtml value, by rw [hescaped, hafter]; simp⟩
          | cons b before =>
            rw [hrest, List.cons_append, List.cons.injEq] at hescaped
            exact absurd rfl (hchars '&' (hescaped.2 ▸ List.mem_append_right _ (List.mem_cons_self ..))).1
        | inr hplain =>
          rw [hplain.1] at hescaped
          have hmem : '&' ∈ [c] := hescaped ▸ List.mem_append_right _ (List.mem_cons_self ..)
          exact absurd (List.mem_singleton.mp hmem).symm hplain.2.1

end Escape

section Placeholder

variable {text source key rest : Text}

theorem isSpace_of_isKeyChar {c : Char} (h : isKeyChar c = true) : isSpace c = false :=
  isSpace_of_isAlphanumeric h

theorem not_isKeyChar_of_isSpace {c : Char} (h : isSpace c = true) : isKeyChar c = false := by
  cases hkey : isKeyChar c with
  | false => rfl
  | true => exact absurd (h.symm.trans (isSpace_of_isKeyChar hkey)) (by decide)

theorem dropWhile_isSpace {before text : Text} (hbefore : ∀ c ∈ before, isSpace c = true)
    (htext : ∀ c ∈ text.head?, isSpace c = false)
    : (before ++ text).dropWhile isSpace = text := by
  rw [List.dropWhile_append_of_pos hbefore]
  cases text with
  | nil => rfl
  | cons c text => rw [List.dropWhile_cons_of_neg (by simp [htext c rfl])]

theorem takeWhile_isKeyChar {key text : Text} (hkey : ∀ c ∈ key, isKeyChar c = true)
    (htext : ∀ c ∈ text.head?, isKeyChar c = false)
    : (key ++ text).takeWhile isKeyChar = key ∧ (key ++ text).dropWhile isKeyChar = text := by
  rw [List.takeWhile_append_of_pos hkey, List.dropWhile_append_of_pos hkey]
  cases text with
  | nil => simp
  | cons c text => simp [htext c rfl]

theorem PLACEHOLDER_eq_some
    : PLACEHOLDER text = some (key, rest) ↔ ∃ source, IsPlaceholder source key ∧ text = source ++ rest := by
  constructor
  . intro h
    unfold PLACEHOLDER at h
    split at h
    . next text =>
      dsimp only at h
      split at h
      . next rest' hrest =>
        split at h
        . cases h
        . next hkey =>
          cases h
          have htext := @List.takeWhile_append_dropWhile _ isSpace text
          have hrest' := @List.takeWhile_append_dropWhile _ isKeyChar (text.dropWhile isSpace)
          have hbraces := @List.takeWhile_append_dropWhile _ isSpace ((text.dropWhile isSpace).dropWhile isKeyChar)
          rw [hrest] at hbraces
          have hsource : IsPlaceholder ('{' :: '{' :: (text.takeWhile isSpace ++
              (text.dropWhile isSpace).takeWhile isKeyChar ++
              ((text.dropWhile isSpace).dropWhile isKeyChar).takeWhile isSpace ++ ['}', '}']))
              ((text.dropWhile isSpace).takeWhile isKeyChar) := by
            refine ⟨hkey, fun c hc => List.mem_takeWhile_imp hc, _, _, ?_, ?_, rfl⟩
            . exact fun c hc => List.mem_takeWhile_imp hc
            . exact fun c hc => List.mem_takeWhile_imp hc
          refine ⟨_, hsource, ?_⟩
          simp only [List.cons_append, List.append_assoc, List.nil_append]
          rw [hbraces, hrest', htext]
      . cases h
    . cases h
  -- the key ends where the blanks or the braces begin, so the scan stops at the same places
  . intro ⟨source, hsource, htext⟩
    have ⟨before, after, hbefore, hafter, heq⟩ := hsource.source
    have hkeyHead : ∀ tail, ∀ c ∈ (key ++ tail).head?, isSpace c = false := by
      intro tail c hc
      cases hkey : key with
      | nil => exact absurd hkey hsource.nonempty
      | cons d key' =>
        rw [hkey] at hc
        cases hc
        exact isSpace_of_isKeyChar (hsource.chars c (hkey ▸ List.mem_cons_self ..))
    have hafterHead : ∀ c ∈ (after ++ '}' :: '}' :: rest).head?, isKeyChar c = false := by
      intro c hc
      cases hcase : after with
      | nil =>
        rw [hcase] at hc
        cases hc
        decide
      | cons d after' =>
        rw [hcase] at hc
        cases hc
        exact not_isKeyChar_of_isSpace (hafter c (hcase ▸ List.mem_cons_self ..))
    have hbrace : ∀ c ∈ ('}' :: '}' :: rest : Text).head?, isSpace c = false := by
      intro c hc
      cases hc
      decide
    have ⟨htake, hdrop⟩ := takeWhile_isKeyChar hsource.chars hafterHead
    have hspaces := dropWhile_isSpace hbefore (hkeyHead (after ++ '}' :: '}' :: rest))
    rw [htext, heq]
    simp only [List.cons_append, List.append_assoc, List.nil_append] at htake hdrop hspaces ⊢
    simp only [PLACEHOLDER, hspaces, htake, hdrop, dropWhile_isSpace hafter hbrace]
    exact if_neg hsource.nonempty

theorem IsPlaceholder.length_pos (h : IsPlaceholder source key) : 0 < source.length := by
  have ⟨before, after, _, _, heq⟩ := h.source
  rw [heq]
  exact Nat.succ_pos _

theorem IsPlaceholder.unique {source' key' rest' : Text} (h : IsPlaceholder source key)
    (h' : IsPlaceholder source' key') (heq : source ++ rest = source' ++ rest')
    : source = source' ∧ key = key' ∧ rest = rest' := by
  have hfirst : PLACEHOLDER (source ++ rest) = some (key, rest) := PLACEHOLDER_eq_some.mpr ⟨source, h, rfl⟩
  have hsecond := PLACEHOLDER_eq_some.mpr ⟨source', h', heq⟩
  rw [hfirst, Option.some.injEq, Prod.mk.injEq] at hsecond
  obtain ⟨hkey, rfl⟩ := hsecond
  exact ⟨List.append_cancel_right heq, hkey, rfl⟩

end Placeholder

section Splitting

variable {text : Text} {segments : List Segment}

theorem Splits.source (h : Splits text segments) : segments.flatMap Segment.source = text := by
  induction h with
  | nil => rfl
  | placeholder hsource hrest ih => rw [List.flatMap_cons, ih]; rfl
  | literal hnone hrest ih => rw [List.flatMap_cons, ih]; rfl

theorem exists_splits (text : Text) : ∃ segments, Splits text segments := by
  induction hlength : text.length using Nat.strong_induction_on generalizing text with
  | _ n ih =>
    cases text with
    | nil => exact ⟨[], .nil⟩
    | cons c text =>
      by_cases hsome : ∃ source key rest, IsPlaceholder source key ∧ c :: text = source ++ rest
      . have ⟨source, key, rest, hsource, heq⟩ := hsome
        have hshorter : rest.length < n := by
          have hpos := hsource.length_pos
          rw [← hlength, heq, List.length_append]
          omega
        have ⟨segments, hsegments⟩ := ih _ hshorter rest rfl
        exact ⟨_, heq ▸ Splits.placeholder hsource hsegments⟩
      . have hshorter : text.length < n := by
          rw [← hlength]
          exact Nat.lt_succ_self _
        have ⟨segments, hsegments⟩ := ih _ hshorter text rfl
        exact ⟨_, .literal (fun source key rest hsource heq => hsome ⟨source, key, rest, hsource, heq⟩) hsegments⟩

theorem Splits.unique {segments' : List Segment} (h : Splits text segments) (h' : Splits text segments')
    : segments = segments' := by
  induction h generalizing segments' with
  | nil =>
    generalize hnil : ([] : Text) = text at h'
    cases h' with
    | nil => rfl
    | placeholder hsource hrest =>
      have hlength := congrArg List.length hnil
      rw [List.length_append] at hlength
      have hpos := hsource.length_pos
      simp only [List.length_nil] at hlength
      omega
    | literal hnone hrest => cases hnil
  | @placeholder source key rest segments hsource hrest ih =>
    generalize htext : source ++ rest = text at h'
    cases h' with
    | nil =>
      have hlength := congrArg List.length htext
      rw [List.length_append] at hlength
      have hpos := hsource.length_pos
      simp only [List.length_nil] at hlength
      omega
    | placeholder hsource' hrest' =>
      obtain ⟨rfl, rfl, rfl⟩ := hsource.unique hsource' htext
      rw [ih hrest']
    | literal hnone' hrest' => exact absurd htext.symm (hnone' _ _ _ hsource)
  | @literal c text segments hnone hrest ih =>
    generalize htext : c :: text = text' at h'
    cases h' with
    | nil => cases htext
    | placeholder hsource' hrest' => exact absurd htext (hnone _ _ _ hsource')
    | literal hnone' hrest' =>
      cases htext
      rw [ih hrest']

end Splitting

section Replacing

variable {ε : Type} {text : Text} {segments : List Segment}

theorem replaceFrom_drop (replacement : Text → Except ε Text) (skipped : Nat) (text : Text)
    : replaceFrom replacement skipped text = replaceFrom replacement 0 (text.drop skipped) := by
  induction text generalizing skipped with
  | nil => simp [replaceFrom]
  | cons c text ih =>
    cases skipped with
    | zero => rfl
    | succ skipped => exact ih skipped

theorem replaceFrom_placeholder (replacement : Text → Except ε Text) {source key rest : Text}
    (hsource : IsPlaceholder source key)
    : replaceFrom replacement 0 (source ++ rest) =
        replacement key >>= fun value => (value ++ ·) <$> replaceFrom replacement 0 rest := by
  cases source with
  | nil => exact absurd hsource.length_pos (Nat.lt_irrefl 0)
  | cons c source =>
    have hmatch : PLACEHOLDER (c :: (source ++ rest)) = some (key, rest) :=
      PLACEHOLDER_eq_some.mpr ⟨_, hsource, rfl⟩
    have hdrop : (source ++ rest).drop ((source ++ rest).length - rest.length) = rest := by
      rw [List.length_append, Nat.add_sub_cancel, List.drop_left]
    rw [List.cons_append, replaceFrom]
    simp only [hmatch, bind_pure_comp]
    rw [replaceFrom_drop, hdrop]

theorem replaceFrom_literal (replacement : Text → Except ε Text) {c : Char}
    (hnone : ∀ source key rest, IsPlaceholder source key → c :: text ≠ source ++ rest)
    : replaceFrom replacement 0 (c :: text) = (c :: ·) <$> replaceFrom replacement 0 text := by
  have hmatch : PLACEHOLDER (c :: text) = none := by
    apply Option.eq_none_iff_forall_ne_some.mpr
    intro ⟨key, rest⟩ hsome
    have ⟨source, hsource, heq⟩ := PLACEHOLDER_eq_some.mp hsome
    exact hnone source key rest hsource heq
  rw [replaceFrom]
  simp only [hmatch, bind_pure_comp]

def Segment.replace (replacement : Text → Except ε Text) : Segment → Except ε Text
  | .literal c => .ok [c]
  | .placeholder _ key => replacement key

theorem Splits.replaceFrom_eq (h : Splits text segments) (replacement : Text → Except ε Text)
    : replaceFrom replacement 0 text = List.flatten <$> segments.mapM (Segment.replace replacement) := by
  induction h with
  | nil => rfl
  | @placeholder source key rest segments hsource hrest ih =>
    rw [replaceFrom_placeholder replacement hsource, ih, List.mapM_cons]
    simp only [Segment.replace, map_bind, Functor.map_map, bind_pure_comp, List.flatten_cons]
  | @literal c text segments hnone hrest ih =>
    have hliteral : Segment.replace replacement (.literal c) = pure [c] := rfl
    rw [replaceFrom_literal replacement hnone, ih, List.mapM_cons, hliteral, pure_bind]
    simp only [Functor.map_map, bind_pure_comp, List.flatten_cons, List.singleton_append]

end Replacing

section Interpolating

variable {text templateName : Text} {segments : List Segment} {variablesMap : Record Text} {escape : Bool}

def shownWith (escape : Bool) : Text → Text :=
  if escape then escapeHtml else id

theorem Segment.replace_of_some {segment : Segment} {part : Text}
    (h : segment.value variablesMap (shownWith escape) = some part)
    : segment.replace (replacementFor variablesMap escape templateName) = .ok part := by
  cases segment with
  | literal c =>
    cases h
    rfl
  | placeholder source key =>
    have ⟨value, hvalue, hshown⟩ := Option.map_eq_some_iff.mp h
    simp only [Segment.replace, replacementFor, hvalue]
    rw [← hshown]
    cases escape <;> rfl

theorem Segment.replace_of_none {segment : Segment} (h : segment.value variablesMap (shownWith escape) = none)
    : ∃ source key, segment = .placeholder source key ∧ variablesMap.lookup key = none ∧
        segment.replace (replacementFor variablesMap escape templateName) =
          .error (.missingVariable templateName key) := by
  cases segment with
  | literal c => cases h
  | placeholder source key =>
    have hlookup := Option.map_eq_none_iff.mp h
    refine ⟨source, key, rfl, hlookup, ?_⟩
    simp only [Segment.replace, replacementFor, hlookup]

theorem mapM_replace_of_some {parts : List Text}
    (h : segments.mapM (Segment.value variablesMap (shownWith escape)) = some parts)
    : segments.mapM (Segment.replace (replacementFor variablesMap escape templateName)) = .ok parts := by
  induction segments generalizing parts with
  | nil =>
    cases h
    rfl
  | cons segment segments ih =>
    rw [List.mapM_cons] at h ⊢
    have ⟨part, hpart, hrest⟩ := Option.bind_eq_some_iff.mp h
    have ⟨parts', hparts', heq⟩ := Option.bind_eq_some_iff.mp hrest
    cases heq
    rw [ih hparts', Segment.replace_of_some hpart]
    rfl

theorem mapM_replace_of_none (h : segments.mapM (Segment.value variablesMap (shownWith escape)) = none)
    : ∃ source key, .placeholder source key ∈ segments ∧ variablesMap.lookup key = none ∧
        segments.mapM (Segment.replace (replacementFor variablesMap escape templateName)) =
          .error (.missingVariable templateName key) := by
  induction segments with
  | nil => cases h
  | cons segment segments ih =>
    rw [List.mapM_cons] at h
    rw [List.mapM_cons]
    cases hpart : segment.value variablesMap (shownWith escape) with
    | none =>
      have ⟨source, key, hsegment, hkey, herror⟩ := @Segment.replace_of_none templateName _ _ _ hpart
      refine ⟨source, key, hsegment ▸ List.mem_cons_self .., hkey, ?_⟩
      rw [herror]
      rfl
    | some part =>
      have hrest : segments.mapM (Segment.value variablesMap (shownWith escape)) = none := by
        cases hparts : segments.mapM (Segment.value variablesMap (shownWith escape)) with
        | none => rfl
        | some parts =>
          rw [hpart, hparts] at h
          cases h
      have ⟨source, key, hmem, hkey, herror⟩ := ih hrest
      refine ⟨source, key, List.mem_cons_of_mem _ hmem, hkey, ?_⟩
      rw [Segment.replace_of_some hpart, herror]
      rfl

theorem Splits.interpolate_of_some (h : Splits text segments) {result : Text}
    (hresult : replaced variablesMap (shownWith escape) segments = some result)
    : interpolate text variablesMap escape templateName = .ok result := by
  have ⟨parts, hparts, hflatten⟩ := Option.map_eq_some_iff.mp hresult
  rw [interpolate, h.replaceFrom_eq, mapM_replace_of_some hparts, ← hflatten]
  rfl

theorem Splits.interpolate_of_none (h : Splits text segments)
    (hnone : replaced variablesMap (shownWith escape) segments = none)
    : ∃ source key, .placeholder source key ∈ segments ∧ variablesMap.lookup key = none ∧
        interpolate text variablesMap escape templateName = .error (.missingVariable templateName key) := by
  have ⟨source, key, hmem, hkey, herror⟩ :=
    @mapM_replace_of_none templateName _ _ _ (Option.map_eq_none_iff.mp hnone)
  refine ⟨source, key, hmem, hkey, ?_⟩
  rw [interpolate, h.replaceFrom_eq, herror]
  rfl

theorem replaced_of_missing {f : Text → Text} {segment : Segment} (hmem : segment ∈ segments)
    (hmissing : segment.isMissing variablesMap = true)
    : replaced variablesMap f segments = none := by
  have hvalue : segment.value variablesMap f = none := by
    cases segment with
    | literal c => cases hmissing
    | placeholder source key =>
      simp only [Segment.isMissing, Option.isNone_iff_eq_none] at hmissing
      simp [Segment.value, hmissing]
  apply Option.map_eq_none_iff.mpr
  induction segments with
  | nil => cases hmem
  | cons first segments ih =>
    rw [List.mapM_cons]
    rcases List.mem_cons.mp hmem with heq | hrest
    . rw [← heq, hvalue]
      rfl
    . rw [ih hrest]
      cases first.value variablesMap f <;> rfl

theorem Splits.interpolate_eq_ok (h : Splits text segments) {result : Text}
    : interpolate text variablesMap escape templateName = .ok result ↔
        replaced variablesMap (shownWith escape) segments = some result := by
  constructor
  . intro hok
    cases hresult : replaced variablesMap (shownWith escape) segments with
    | none =>
      have ⟨_, key, _, _, herror⟩ := @Splits.interpolate_of_none _ templateName _ _ _ h hresult
      rw [herror] at hok
      cases hok
    | some result' =>
      rw [h.interpolate_of_some hresult] at hok
      cases hok
      rfl
  . exact h.interpolate_of_some

/--
A placeholder of the text names a variable that is not given.
-/
def Lacks (variablesMap : Record Text) (text key : Text) : Prop :=
  ∃ segments source, Splits text segments ∧ .placeholder source key ∈ segments ∧ variablesMap.lookup key = none

theorem interpolate_eq_error {e : RenderError} (herror : interpolate text variablesMap escape templateName = .error e)
    : ∃ key, Lacks variablesMap text key ∧ e = .missingVariable templateName key := by
  have ⟨segments, h⟩ := exists_splits text
  cases hresult : replaced variablesMap (shownWith escape) segments with
  | none =>
    have ⟨source, key, hmem, hkey, herror'⟩ := @Splits.interpolate_of_none _ templateName _ _ _ h hresult
    cases herror.symm.trans herror'
    exact ⟨key, ⟨segments, source, h, hmem, hkey⟩, rfl⟩
  | some result => cases herror.symm.trans (h.interpolate_of_some hresult)

end Interpolating

section Templates

def RawTemplate.parts (raw : RawTemplate) : List Text :=
  raw.subject :: raw.text :: raw.html.toList

def IsIncomplete (variablesMap : Record Text) (text : Text) : Prop :=
  ∃ segments, Splits text segments ∧ ∃ segment ∈ segments, segment.isMissing variablesMap = true

def RendersText (variablesMap : Record Text) (f : Text → Text) (source result : Text) : Prop :=
  ∃ segments, Splits source segments ∧ replaced variablesMap f segments = some result

structure RenderedFrom (variablesMap : Record Text) (raw : RawTemplate) (rendered : RenderedTemplate) : Prop where
  subject : RendersText variablesMap id raw.subject rendered.subject
  text : RendersText variablesMap id raw.text rendered.text
  html : Option.Rel (RendersText variablesMap escapeHtml) raw.html rendered.html

variable {registry : Record RawTemplate} {templateName : Text} {variablesMap : Record Text}

theorem interpolate_iff {text result : Text} {escape : Bool}
    : interpolate text variablesMap escape templateName = .ok result ↔
        RendersText variablesMap (shownWith escape) text result := by
  constructor
  . intro hok
    have ⟨segments, h⟩ := exists_splits text
    exact ⟨segments, h, h.interpolate_eq_ok.mp hok⟩
  . intro ⟨segments, h, hresult⟩
    exact h.interpolate_of_some hresult

theorem IsIncomplete.not_rendersText {text result : Text} {f : Text → Text} (h : IsIncomplete variablesMap text)
    : ¬RendersText variablesMap f text result := by
  intro ⟨segments, hsplits, hresult⟩
  have ⟨segments', hsplits', segment, hmem, hmissing⟩ := h
  rw [hsplits.unique hsplits', replaced_of_missing hmem hmissing] at hresult
  cases hresult

theorem Lacks.isIncomplete {text key : Text} (h : Lacks variablesMap text key) : IsIncomplete variablesMap text := by
  have ⟨segments, source, hsplits, hmem, hkey⟩ := h
  exact ⟨segments, hsplits, _, hmem, by simp [Segment.isMissing, hkey]⟩

theorem exists_rendersText (escape : Bool) {text : Text} (h : ¬IsIncomplete variablesMap text)
    : ∃ result, RendersText variablesMap (shownWith escape) text result := by
  cases hresult : interpolate text variablesMap escape [] with
  | error e =>
    have ⟨key, hlacks, _⟩ := interpolate_eq_error hresult
    exact absurd hlacks.isIncomplete h
  | ok result => exact ⟨result, interpolate_iff.mp hresult⟩

theorem renderTemplate_iff {rendered : RenderedTemplate}
    : renderTemplate registry templateName variablesMap = .ok rendered ↔
        ∃ raw, registry.lookup templateName = some raw ∧ RenderedFrom variablesMap raw rendered := by
  unfold renderTemplate
  cases hraw : registry.lookup templateName with
  | none => simp
  | some raw =>
    simp only [Option.some.injEq, exists_eq_left', Except.bind_eq_ok]
    constructor
    . intro ⟨subject, hsubject, text, htext, h⟩
      cases hhtml : raw.html with
      | none =>
        rw [hhtml] at h
        cases h
        exact ⟨interpolate_iff.mp hsubject, interpolate_iff.mp htext, by rw [hhtml]; exact .none⟩
      | some html =>
        rw [hhtml] at h
        have ⟨result, hresult, h⟩ := Except.bind_eq_ok.mp h
        cases h
        refine ⟨interpolate_iff.mp hsubject, interpolate_iff.mp htext, ?_⟩
        rw [hhtml]
        exact .some (interpolate_iff.mp hresult)
    . intro hrendered
      refine ⟨rendered.subject, interpolate_iff.mpr hrendered.subject, rendered.text,
        interpolate_iff.mpr hrendered.text, ?_⟩
      have hhtml := hrendered.html
      cases rendered with
      | mk subject text html =>
        cases hraw : raw.html with
        | none =>
          rw [hraw] at hhtml
          cases hhtml
          rfl
        | some source =>
          rw [hraw] at hhtml
          cases hhtml with
          | some hresult => exact Except.bind_eq_ok.mpr ⟨_, interpolate_iff.mpr hresult, rfl⟩

theorem renderTemplate_eq_error {e : RenderError}
    (h : renderTemplate registry templateName variablesMap = .error e)
    : registry.lookup templateName = none ∧ e = .unknownTemplate templateName ∨
        ∃ raw key, registry.lookup templateName = some raw ∧ (∃ part ∈ raw.parts, Lacks variablesMap part key) ∧
          e = .missingVariable templateName key := by
  unfold renderTemplate at h
  cases hraw : registry.lookup templateName with
  | none =>
    rw [hraw] at h
    cases h
    exact Or.inl ⟨rfl, rfl⟩
  | some raw =>
    have hlacking {escape : Bool} {part : Text} (hpart : part ∈ raw.parts)
        (herror : interpolate part variablesMap escape templateName = .error e)
        : ∃ raw' key, some raw = some raw' ∧ (∃ part ∈ raw'.parts, Lacks variablesMap part key) ∧
            e = .missingVariable templateName key := by
      have ⟨key, hlacks, he⟩ := interpolate_eq_error herror
      exact ⟨raw, key, rfl, ⟨part, hpart, hlacks⟩, he⟩
    refine Or.inr ?_
    rw [hraw] at h
    rcases Except.bind_eq_error.mp h with hsubject | ⟨_, _, h⟩
    . exact hlacking (List.mem_cons_self ..) hsubject
    rcases Except.bind_eq_error.mp h with htext | ⟨_, _, h⟩
    . exact hlacking (by simp [RawTemplate.parts]) htext
    cases hhtml : raw.html with
    | none =>
      rw [hhtml] at h
      cases h
    | some html =>
      rw [hhtml] at h
      rcases Except.bind_eq_error.mp h with hresult | ⟨_, _, h⟩
      . exact hlacking (by simp [RawTemplate.parts, hhtml]) hresult
      . cases h

theorem exists_renderedFrom {raw : RawTemplate} (h : ∀ part ∈ raw.parts, ¬IsIncomplete variablesMap part)
    : ∃ rendered, RenderedFrom variablesMap raw rendered := by
  have ⟨subject, hsubject⟩ := exists_rendersText false (h raw.subject (List.mem_cons_self ..))
  have ⟨text, htext⟩ := exists_rendersText false (h raw.text (by simp [RawTemplate.parts]))
  cases hhtml : raw.html with
  | none => exact ⟨⟨subject, text, none⟩, hsubject, htext, by rw [hhtml]; exact .none⟩
  | some html =>
    have hpart : html ∈ raw.parts := by simp [RawTemplate.parts, hhtml]
    have ⟨result, hresult⟩ := exists_rendersText true (h html hpart)
    exact ⟨⟨subject, text, some result⟩, hsubject, htext, hhtml ▸ .some hresult⟩

theorem RenderedFrom.complete {raw : RawTemplate} {rendered : RenderedTemplate}
    (h : RenderedFrom variablesMap raw rendered)
    : ∀ part ∈ raw.parts, ¬IsIncomplete variablesMap part := by
  intro part hpart hincomplete
  simp only [RawTemplate.parts, List.mem_cons, Option.mem_toList] at hpart
  rcases hpart with rfl | rfl | hhtml
  . exact hincomplete.not_rendersText h.subject
  . exact hincomplete.not_rendersText h.text
  . have hrel := h.html
    cases rendered with
    | mk subject text html =>
      rw [hhtml] at hrel
      cases hrel with
      | some hresult => exact hincomplete.not_rendersText hresult

structure RendersTemplates (registry : Record RawTemplate) (templateName : Text) (variablesMap : Record Text)
    : Prop where
  splits : ∀ text : Text, ∃! segments, Splits text segments
  source : ∀ text segments, Splits text segments → segments.flatMap Segment.source = text
  renders : ∀ rendered, renderTemplate registry templateName variablesMap = .ok rendered ↔
    ∃ raw, registry.lookup templateName = some raw ∧ RenderedFrom variablesMap raw rendered
  fails : (∃ e, renderTemplate registry templateName variablesMap = .error e) ↔
    ∀ raw, registry.lookup templateName = some raw → ∃ part ∈ raw.parts, IsIncomplete variablesMap part
  names : ∀ e, renderTemplate registry templateName variablesMap = .error e →
    registry.lookup templateName = none ∧ e = .unknownTemplate templateName ∨
      ∃ raw key, registry.lookup templateName = some raw ∧ (∃ part ∈ raw.parts, Lacks variablesMap part key) ∧
        e = .missingVariable templateName key
  chars : ∀ value, ∀ c ∈ escapeHtml value, c ≠ '<' ∧ c ≠ '>' ∧ c ≠ '"' ∧ c ≠ '\''
  ampersands : ∀ value before after, escapeHtml value = before ++ '&' :: after →
    ∃ entity ∈ ENTITIES, entity <+: '&' :: after
  unescapes : ∀ value, unescapeHtml (escapeHtml value) = value

theorem renderTemplate_fails_iff
    : (∃ e, renderTemplate registry templateName variablesMap = .error e) ↔
        ∀ raw, registry.lookup templateName = some raw → ∃ part ∈ raw.parts, IsIncomplete variablesMap part := by
  constructor
  . intro ⟨e, herror⟩ raw hraw
    apply Classical.byContradiction
    intro hcomplete
    have ⟨rendered, hrendered⟩ := exists_renderedFrom fun part hpart hpartial => hcomplete ⟨part, hpart, hpartial⟩
    have hok := renderTemplate_iff.mpr ⟨raw, hraw, hrendered⟩
    cases herror.symm.trans hok
  . intro hincomplete
    cases hrendered : renderTemplate registry templateName variablesMap with
    | error e => exact ⟨e, rfl⟩
    | ok rendered =>
      have ⟨raw, hraw, hfrom⟩ := renderTemplate_iff.mp hrendered
      have ⟨part, hpart, hpartial⟩ := hincomplete raw hraw
      exact absurd hpartial (hfrom.complete part hpart)

theorem rendersTemplates (registry : Record RawTemplate) (templateName : Text) (variablesMap : Record Text)
    : RendersTemplates registry templateName variablesMap where
  splits text := by
    have ⟨segments, h⟩ := exists_splits text
    exact ⟨segments, h, fun _ h' => h'.unique h⟩
  source _ _ h := h.source
  renders _ := renderTemplate_iff
  fails := renderTemplate_fails_iff
  names _ := renderTemplate_eq_error
  chars := escapeHtml_chars
  ampersands _ _ _ := escapeHtml_ampersands
  unescapes := unescapeHtml_escapeHtml

end Templates

end Kerghan.Mail
