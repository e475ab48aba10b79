import Kerghan.Standalone.Impl.Up

/-!
This module contains the releases: what an image says of its version, and what the shell makes of two of them.
-/

namespace Kerghan.Standalone

open Shell

structure Version where
  major : Nat
  minor : Nat
  patch : Nat

namespace Version

def Newer (v w : Version) : Prop :=
  w.major < v.major ∨ w.major = v.major ∧ (w.minor < v.minor ∨ w.minor = v.minor ∧ w.patch < v.patch)

def order (v w : Version) : Ordering :=
  ((compare (Int.bmod v.major (2 ^ 64)) (Int.bmod w.major (2 ^ 64))).then
    (compare (Int.bmod v.minor (2 ^ 64)) (Int.bmod w.minor (2 ^ 64)))).then
    (compare (Int.bmod v.patch (2 ^ 64)) (Int.bmod w.patch (2 ^ 64)))

end Version

def IsVersion (version : Text) (v : Version) : Prop :=
  ∃ a b c, version = a ++ '.' :: (b ++ '.' :: c) ∧ isDigits a = true ∧ isDigits b = true ∧ isDigits c = true ∧
    v = ⟨decimal a, decimal b, decimal c⟩

/--
The image is the release `v` of one of the two variants.
-/
def IsRelease (image : Text) (offline : Bool) (v : Version) : Prop :=
  ∃ version, image = imageRef offline version ∧ IsVersion version v

section Parse

variable {image version a b c : Text} {offline : Bool} {v : Version}

theorem isDigits_chars (h : isDigits a = true) : a ≠ [] ∧ ∀ d ∈ a, d.isDigit = true := by
  simpa [isDigits] using h

theorem not_mem_isDigits (h : isDigits a = true) {d : Char} (hd : d.isDigit = false) : d ∉ a := by
  intro hmem
  have hdigit := (isDigits_chars h).2 d hmem
  rw [hd] at hdigit
  cases hdigit

theorem splitOn_version (ha : isDigits a = true) (hb : isDigits b = true) (hc : isDigits c = true)
    : (a ++ '.' :: (b ++ '.' :: c)).splitOn '.' = [a, b, c] := by
  have hdot : ∀ part ∈ [a, b, c], '.' ∉ part := by
    intro part hpart
    simp only [List.mem_cons, List.not_mem_nil, or_false] at hpart
    rcases hpart with rfl | rfl | rfl
    . exact not_mem_isDigits ha (by decide)
    . exact not_mem_isDigits hb (by decide)
    . exact not_mem_isDigits hc (by decide)
  have hjoin := List.splitOn_intercalate '.' hdot (by simp)
  simpa [List.intercalate] using hjoin

theorem isSemver_iff : isSemver version = true ↔ ∃ v, IsVersion version v := by
  constructor
  . intro hsemver
    unfold isSemver at hsemver
    split at hsemver
    . next a b c hsplit =>
      simp only [Bool.and_eq_true] at hsemver
      refine ⟨_, a, b, c, ?_, hsemver.1.1, hsemver.1.2, hsemver.2, rfl⟩
      have hjoin : ['.'].intercalate (version.splitOn '.') = version := List.intercalate_splitOn '.'
      rw [← hjoin, hsplit]
      simp [List.intercalate]
    . cases hsemver
  . intro ⟨v, a, b, c, hversion, ha, hb, hc, _⟩
    rw [isSemver, hversion, splitOn_version ha hb hc]
    simp [ha, hb, hc]

theorem IsVersion.chars (h : IsVersion version v) : ∀ d ∈ version, d.isDigit = true ∨ d = '.' := by
  have ⟨a, b, c, hversion, ha, hb, hc, _⟩ := h
  intro d hd
  rw [hversion] at hd
  simp only [List.mem_append, List.mem_cons] at hd
  rcases hd with hd | hd | hd | hd | hd
  . exact Or.inl ((isDigits_chars ha).2 d hd)
  . exact Or.inr hd
  . exact Or.inl ((isDigits_chars hb).2 d hd)
  . exact Or.inr hd
  . exact Or.inl ((isDigits_chars hc).2 d hd)

theorem IsVersion.not_mem (h : IsVersion version v) {d : Char} (hdigit : d.isDigit = false) (hdot : d ≠ '.')
    : d ∉ version := by
  intro hd
  cases h.chars d hd with
  | inl hd' =>
    rw [hdigit] at hd'
    cases hd'
  | inr hd' => exact hdot hd'

theorem IsVersion.not_offline (h : IsVersion version v) : ¬OFFLINE <:+ version := by
  intro hsuffix
  exact h.not_mem (d := 'o') (by decide) (by decide) (hsuffix.subset (by decide))

theorem IsVersion.splitOn (h : IsVersion version v)
    : ∃ a b c, version.splitOn '.' = [a, b, c] ∧ v = ⟨decimal a, decimal b, decimal c⟩ := by
  have ⟨a, b, c, hversion, ha, hb, hc, hv⟩ := h
  exact ⟨a, b, c, by rw [hversion, splitOn_version ha hb hc], hv⟩

theorem IsVersion.unique {w : Version} (hv : IsVersion version v) (hw : IsVersion version w) : v = w := by
  have ⟨a, b, c, hsplit, hv⟩ := hv.splitOn
  have ⟨a', b', c', hsplit', hw⟩ := hw.splitOn
  rw [hsplit] at hsplit'
  simp only [List.cons.injEq, and_true] at hsplit'
  rw [hv, hw, hsplit'.1, hsplit'.2.1, hsplit'.2.2]

theorem versionCompare_eq {version' : Text} {w : Version} (hv : IsVersion version v) (hw : IsVersion version' w)
    : versionCompare version version' = v.order w := by
  have ⟨a, b, c, hsplit, hv⟩ := hv.splitOn
  have ⟨a', b', c', hsplit', hw⟩ := hw.splitOn
  rw [versionCompare, hsplit, hsplit', hv, hw]
  rfl

theorem imageRef_eq (offline : Bool) (tag : Text)
    : imageRef offline tag = IMAGE_REPO ++ ':' :: if offline then tag ++ OFFLINE else tag := by
  cases offline with
  | false => rfl
  | true => exact List.append_assoc ..

structure Parsed (image : Text) (offline : Bool) (v : Version) : Prop where
  repo : beforeLast ':' image = IMAGE_REPO
  tagged : beforeLast ':' image ≠ image
  version : IsVersion (dropEnding OFFLINE (afterLast ':' image)) v
  variant : decide (dropEnding OFFLINE (afterLast ':' image) ≠ afterLast ':' image) = offline
  ending : OFFLINE.isSuffixOf image = offline

theorem beforeLast_ne_of_mem (h : ':' ∈ image) : beforeLast ':' image ≠ image := by
  intro heq
  have hlength := congrArg List.length (beforeLast_append_afterLast h)
  rw [heq] at hlength
  simp at hlength

theorem IsRelease.parsed (h : IsRelease image offline v) : Parsed image offline v := by
  have ⟨version, himage, hversion⟩ := h
  rw [imageRef_eq] at himage
  have hcolon : ':' ∉ version := hversion.not_mem (by decide) (by decide)
  cases offline with
  | false =>
    have htag : afterLast ':' image = version := by rw [himage]; exact afterLast_append hcolon _
    have hdrop : dropEnding OFFLINE version = version := dropEnding_eq_self hversion.not_offline
    exact {
      repo := by rw [himage]; exact beforeLast_append hcolon _
      tagged := beforeLast_ne_of_mem (by rw [himage]; simp)
      version := by rwa [htag, hdrop]
      variant := by rw [htag, hdrop]; simp
      ending := by
        rw [← Bool.not_eq_true, List.isSuffixOf_iff_suffix]
        intro hsuffix
        have hversion' : version <:+ image :=
          ⟨IMAGE_REPO ++ [':'], by rw [himage, List.append_assoc, List.singleton_append]; rfl⟩
        cases List.suffix_or_suffix_of_suffix hsuffix hversion' with
        | inl hoffline => exact hversion.not_offline hoffline
        | inr hoffline =>
          have hdot : '.' ∈ version := by
            have ⟨a, b, c, hparts, _⟩ := hversion
            rw [hparts]
            simp
          exact absurd (hoffline.subset hdot) (by decide)
    }
  | true =>
    have hcolon' : ':' ∉ version ++ OFFLINE := by
      rw [List.mem_append, not_or]
      exact ⟨hcolon, by decide⟩
    have htag : afterLast ':' image = version ++ OFFLINE := by rw [himage]; exact afterLast_append hcolon' _
    exact {
      repo := by rw [himage]; exact beforeLast_append hcolon' _
      tagged := beforeLast_ne_of_mem (by rw [himage]; simp)
      version := by rwa [htag, dropEnding_append]
      variant := by
        rw [htag, dropEnding_append, decide_eq_true_eq]
        intro heq
        have hlength := congrArg List.length heq
        rw [List.length_append, show OFFLINE.length = 8 by decide] at hlength
        omega
      ending := by
        rw [List.isSuffixOf_iff_suffix]
        exact ⟨IMAGE_REPO ++ ':' :: version, by rw [himage, List.append_assoc]; rfl⟩
    }

theorem IsRelease.unique {offline' : Bool} {w : Version} (hv : IsRelease image offline v)
    (hw : IsRelease image offline' w)
    : offline = offline' ∧ v = w :=
  ⟨hv.parsed.variant.symm.trans hw.parsed.variant, hv.parsed.version.unique hw.parsed.version⟩

theorem not_isSemver_latest : isSemver (dropEnding OFFLINE "latest".toList) = false := by
  decide

theorem isRelease_iff
    : (beforeLast ':' image = IMAGE_REPO ∧
          isSemver (dropEnding OFFLINE
            (if beforeLast ':' image = image then "latest".toList else afterLast ':' image)) = true) ↔
        ∃ offline v, IsRelease image offline v := by
  constructor
  . rintro ⟨hrepo, hsemver⟩
    by_cases hcolon : ':' ∈ image
    . rw [if_neg (beforeLast_ne_of_mem hcolon)] at hsemver
      obtain ⟨v, hv⟩ := isSemver_iff.mp hsemver
      have himage := beforeLast_append_afterLast hcolon
      rw [hrepo] at himage
      cases dropEnding_cases OFFLINE (afterLast ':' image) with
      | inl honline =>
        refine ⟨false, v, _, ?_, hv⟩
        rw [imageRef_eq, honline]
        exact himage.symm
      | inr hoffline =>
        refine ⟨true, v, _, ?_, hv⟩
        rw [imageRef_eq, if_pos rfl, ← hoffline]
        exact himage.symm
    . rw [if_pos (by rw [beforeLast, if_neg hcolon]), not_isSemver_latest] at hsemver
      cases hsemver
  . rintro ⟨offline, v, hrelease⟩
    have hparsed := hrelease.parsed
    rw [if_neg hparsed.tagged]
    exact ⟨hparsed.repo, isSemver_iff.mpr ⟨v, hparsed.version⟩⟩

end Parse

end Kerghan.Standalone
