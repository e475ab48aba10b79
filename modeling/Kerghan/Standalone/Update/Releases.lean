import Kerghan.Standalone.Impl.Update
import Kerghan.Standalone.Up.Recreate

/-!
This module contains which releases the client tells apart, and in which order: the shell compares what is
left of their numbers in 64 bits.
-/

namespace Kerghan.Standalone

open Shell

namespace Version

def compare (v w : Version) : Ordering :=
  ((Ord.compare v.major w.major).then (Ord.compare v.minor w.minor)).then (Ord.compare v.patch w.patch)

/--
Two's complement in 64 bits, moved up such that no number is negative.
-/
def word (n : Nat) : Nat :=
  (n + 2 ^ 63) % 2 ^ 64

def words (v : Version) : Version :=
  ⟨word v.major, word v.minor, word v.patch⟩

variable {v w : Version}

theorem compare_eq_gt : v.compare w = .gt ↔ v.Newer w := by
  unfold compare Newer
  rw [Ordering.then_eq_gt, Ordering.then_eq_gt, Ordering.then_eq_eq, Nat.compare_eq_gt, Nat.compare_eq_gt,
    Nat.compare_eq_gt, Nat.compare_eq_eq, Nat.compare_eq_eq]
  omega

theorem compare_eq_lt : v.compare w = .lt ↔ w.Newer v := by
  unfold compare Newer
  rw [Ordering.then_eq_lt, Ordering.then_eq_lt, Ordering.then_eq_eq, Nat.compare_eq_lt, Nat.compare_eq_lt,
    Nat.compare_eq_lt, Nat.compare_eq_eq, Nat.compare_eq_eq]
  omega

theorem compare_eq_eq : v.compare w = .eq ↔ v = w := by
  unfold compare
  rw [Ordering.then_eq_eq, Ordering.then_eq_eq, Nat.compare_eq_eq, Nat.compare_eq_eq, Nat.compare_eq_eq,
    and_assoc]
  constructor
  . intro ⟨hmajor, hminor, hpatch⟩
    cases v
    cases w
    simp_all
  . intro hsame
    rw [hsame]
    exact ⟨rfl, rfl, rfl⟩

theorem compare_sub (a b k : Nat) : Ord.compare ((a : Int) - k) (b - k) = Ord.compare a b := by
  cases hcompare : Ord.compare a b with
  | lt =>
    have hlt := Nat.compare_eq_lt.mp hcompare
    rw [Int.compare_eq_lt]
    omega
  | eq =>
    have heq := Nat.compare_eq_eq.mp hcompare
    rw [Int.compare_eq_eq]
    omega
  | gt =>
    have hgt := Nat.compare_eq_gt.mp hcompare
    rw [Int.compare_eq_gt]
    omega

theorem bmod_eq (n : Nat) : Int.bmod n (2 ^ 64) = (word n : Int) - (2 ^ 63 : Nat) := by
  rw [Int.bmod_def, word]
  split
  . omega
  . omega

theorem order_eq (v w : Version) : v.order w = v.words.compare w.words := by
  simp only [order, bmod_eq, compare_sub]
  rfl

/--
How often a word overflows until it holds `n`.
-/
def overflows (n : Nat) : Nat :=
  (n + 2 ^ 63) / 2 ^ 64

/--
`n` is less than `m` after what has overflowed of both is gone.
-/
def Below (n m : Nat) : Prop :=
  n + 2 ^ 64 * overflows m < m + 2 ^ 64 * overflows n

def Level (n m : Nat) : Prop :=
  n + 2 ^ 64 * overflows m = m + 2 ^ 64 * overflows n

def LooksOlder (v w : Version) : Prop :=
  Below v.major w.major ∨ Level v.major w.major ∧
    (Below v.minor w.minor ∨ Level v.minor w.minor ∧ Below v.patch w.patch)

/--
The overflows do not turn the order of the two releases around.
-/
def InOrder (v w : Version) : Prop :=
  (w.Newer v → v.LooksOlder w) ∧ (v.Newer w → w.LooksOlder v)

/--
The first numbers in which the two releases differ fit into a word.
-/
def Fits (v w : Version) : Prop :=
  (v.major ≠ w.major → v.major < 2 ^ 63 ∧ w.major < 2 ^ 63) ∧
    (v.major = w.major → v.minor ≠ w.minor → v.minor < 2 ^ 63 ∧ w.minor < 2 ^ 63) ∧
    (v.major = w.major → v.minor = w.minor → v.patch ≠ w.patch → v.patch < 2 ^ 63 ∧ w.patch < 2 ^ 63)

theorem word_eq (n : Nat) : word n + 2 ^ 64 * overflows n = n + 2 ^ 63 :=
  Nat.mod_add_div ..

theorem below_iff {n m : Nat} : Below n m ↔ word n < word m := by
  have hn := word_eq n
  have hm := word_eq m
  unfold Below
  omega

theorem level_iff {n m : Nat} : Level n m ↔ word n = word m := by
  have hn := word_eq n
  have hm := word_eq m
  unfold Level
  omega

theorem looksOlder_iff : v.LooksOlder w ↔ v.words.compare w.words = .lt := by
  rw [compare_eq_lt, LooksOlder, Newer]
  simp only [below_iff, level_iff, words]

theorem compare_swap (v w : Version) : w.compare v = (v.compare w).swap := by
  cases hcompare : v.compare w with
  | lt => exact compare_eq_gt.mpr (compare_eq_lt.mp hcompare)
  | eq => exact compare_eq_eq.mpr (compare_eq_eq.mp hcompare).symm
  | gt => exact compare_eq_lt.mpr (compare_eq_gt.mp hcompare)

theorem inOrder_iff : v.InOrder w ↔ v.words.compare w.words = v.compare w := by
  rw [InOrder, looksOlder_iff, looksOlder_iff, compare_swap v.words, ← compare_eq_lt, ← compare_eq_gt]
  cases hcompare : v.compare w with
  | lt => simp
  | eq =>
    rw [compare_eq_eq.mp hcompare]
    simp [compare_eq_eq]
  | gt =>
    cases v.words.compare w.words <;> simp

theorem overflows_of_lt {n : Nat} (h : n < 2 ^ 63) : overflows n = 0 :=
  Nat.div_eq_of_lt (by omega)

theorem below_of_lt {n m : Nat} (h : n < 2 ^ 63 ∧ m < 2 ^ 63) (hlt : n < m) : Below n m := by
  rw [Below, overflows_of_lt h.1, overflows_of_lt h.2]
  exact hlt

theorem level_of_eq {n m : Nat} (h : n = m) : Level n m :=
  h ▸ rfl

theorem Fits.symm (h : v.Fits w) : w.Fits v :=
  ⟨fun hmajor => (h.1 hmajor.symm).symm, fun hmajor hminor => (h.2.1 hmajor.symm hminor.symm).symm,
    fun hmajor hminor hpatch => (h.2.2 hmajor.symm hminor.symm hpatch.symm).symm⟩

theorem looksOlder_of_fits (h : v.Fits w) (hnewer : w.Newer v) : v.LooksOlder w := by
  rcases hnewer with hmajor | ⟨hmajor, hminor | ⟨hminor, hpatch⟩⟩
  . exact Or.inl (below_of_lt (h.1 hmajor.ne) hmajor)
  . exact Or.inr ⟨level_of_eq hmajor, Or.inl (below_of_lt (h.2.1 hmajor hminor.ne) hminor)⟩
  . exact Or.inr ⟨level_of_eq hmajor,
      Or.inr ⟨level_of_eq hminor, below_of_lt (h.2.2 hmajor hminor hpatch.ne) hpatch⟩⟩

theorem inOrder_of_fits (h : v.Fits w) : v.InOrder w :=
  ⟨looksOlder_of_fits h, looksOlder_of_fits h.symm⟩

theorem not_inOrder_of_le {n : Nat} (h : 2 ^ 63 ≤ n) (major minor : Nat)
    : ¬InOrder ⟨major, minor, 2 ^ 63 - 1⟩ ⟨major, minor, n⟩ := by
  intro horder
  have hnewer : Newer ⟨major, minor, n⟩ ⟨major, minor, 2 ^ 63 - 1⟩ :=
    Or.inr ⟨rfl, Or.inr ⟨rfl, show 2 ^ 63 - 1 < n by omega⟩⟩
  have holder := horder.1 hnewer
  simp only [LooksOlder, Below, Level, overflows] at holder
  omega

end Version

def Confirmed (args : UpdateArgs) (h : History Step Reply) : Prop :=
  args.yes = true ∨ ∃ line : Text × Bool, ⟨.readLine, line⟩ ∈ h ∧ confirms line.1 = true

section

variable (a b : Text) (v w : Version)

structure OrdersReleases : Prop where
  compare_eq : versionCompare a b = v.compare w
  upgrades : ∀ args, cmdUpdate.decide args b a = .act .upgrade ↔ v.Newer w
  guarded : w.Newer v → ∀ args, (cmdUpdate.proceed args b a).Meets (fun _ _ => True)
    (fun h s => ∀ version, s = .install version → Confirmed args h) (fun _ _ => True) []
  downgrades : updateIsDowngrade a b = true ↔ v.Newer w
  finishes : v.Newer w → ∀ envLost previous image, cmdUpdateFinish.decide a b envLost previous image = .untouched
  refuses : ∀ offline offline' currentPort port,
    recreateReason (imageRef offline a) (imageRef offline' b) currentPort port = .downgrade ↔ v.Newer w

end

section Guards

variable {a b : Text} {v w : Version} {args : UpdateArgs}

theorem Confirmed.mono {h h' : History Step Reply} (hconfirmed : Confirmed args h) (hsuffix : h <:+ h')
    : Confirmed args h' := by
  cases hconfirmed with
  | inl hyes => exact Or.inl hyes
  | inr hline =>
    have ⟨line, hmem, hconfirms⟩ := hline
    exact Or.inr ⟨line, hsuffix.subset hmem, hconfirms⟩

theorem decide_upgrade (hcurrent : isSemver b = true) (hcompare : versionCompare a b = v.compare w)
    : cmdUpdate.decide args b a = .act .upgrade ↔ v.Newer w := by
  rw [← Version.compare_eq_gt, ← hcompare, cmdUpdate.decide, hcurrent]
  cases versionCompare a b with
  | gt => simp
  | eq => cases args.force <;> simp
  | lt =>
    by_cases hversion : args.version = []
    . simp [hversion]
    . simp [hversion]

theorem updateConfirmDowngrade_meets
    : (updateConfirmDowngrade args).Meets (fun _ _ => True)
        (fun h s => ∀ version, s = .install version → Confirmed args h)
        (fun h result => result = .ok () → Confirmed args h) [] := by
  unfold updateConfirmDowngrade
  split
  . next hyes => exact fun _ => Or.inl hyes
  . refine ⟨fun _ htty => (nomatch htty), fun isTty _ => ?_⟩
    cases isTty with
    | false => exact fun hthrown => nomatch hthrown
    | true =>
      refine ⟨fun _ hread => (nomatch hread), fun line _ => ?_⟩
      have ⟨answer, ended⟩ := line
      dsimp only [Prog.bind]
      split
      . next hconfirms => exact fun _ => Or.inr ⟨(answer, ended), List.mem_cons_self .., hconfirms⟩
      . exact fun hthrown => nomatch hthrown

theorem proceed_guarded (hcurrent : isSemver b = true) (hlt : versionCompare a b = .lt)
    : (cmdUpdate.proceed args b a).Meets (fun _ _ => True)
        (fun h s => ∀ version, s = .install version → Confirmed args h) (fun _ _ => True) [] := by
  have hinstall (h : History Step Reply) (hconfirmed : Confirmed args h)
      : (cmdUpdate.install args b a .downgrade).Meets (fun _ _ => True)
          (fun h s => ∀ version, s = .install version → Confirmed args h) (fun _ _ => True) h := by
    have hall : (cmdUpdate.install args b a .downgrade).Meets (fun _ _ => True) (fun _ _ => True)
        (fun _ _ => True) h := (Prog.meets_true _).mono fun _ _ _ _ => trivial
    exact hall.imp_of_suffix fun _ _ hsuffix _ _ _ => hconfirmed.mono hsuffix
  have hdecide : cmdUpdate.decide args b a = .nothingToDo ∨ cmdUpdate.decide args b a = .act .downgrade := by
    rw [cmdUpdate.decide, hcurrent, hlt]
    by_cases hversion : args.version = []
    . simp [hversion]
    . simp [hversion]
  unfold cmdUpdate.proceed
  cases hdecide with
  | inl hdecide =>
    rw [hdecide]
    trivial
  | inr hdecide =>
    rw [hdecide]
    apply updateConfirmDowngrade_meets.bind
    . intro h _ _ hpassed
      exact hinstall h (hpassed rfl)
    . intro _ _ _ _
      trivial

theorem updateIsDowngrade_iff (hversion : isSemver a = true) (hcurrent : isSemver b = true)
    (hcompare : versionCompare a b = v.compare w)
    : updateIsDowngrade a b = true ↔ v.Newer w := by
  rw [updateIsDowngrade, hversion, hcurrent, hcompare, ← Version.compare_eq_gt]
  simp

theorem updateFinishFrom_version (ha : IsVersion a v) : updateFinishFrom a = if a.length ≤ 64 then a else [] := by
  unfold updateFinishFrom
  rw [if_neg]
  intro hany
  obtain ⟨c, hc, hchar⟩ := List.any_eq_true.mp hany
  cases ha.chars c hc with
  | inl hdigit => simp [Char.isAlphanum, hdigit] at hchar
  | inr hdot => simp [hdot] at hchar

/--
A release with more than 64 characters is not known to `update --finish`, which goes on as after an upgrade.
-/
theorem finish_untouched_iff (ha : IsVersion a v) (hdowngrade : updateIsDowngrade a b = true)
    : (∀ envLost previous image, cmdUpdateFinish.decide a b envLost previous image = .untouched) ↔
        a.length ≤ 64 := by
  have hne : a ≠ [] := by
    intro hempty
    have hversion := isSemver_iff.mpr ⟨v, ha⟩
    rw [hempty] at hversion
    cases hversion
  by_cases hlength : a.length ≤ 64
  . simp [cmdUpdateFinish.decide, updateFinishFrom_version ha, hlength, hdowngrade, hne]
  . refine iff_of_false (fun hfinishes => ?_) hlength
    have hfinish := hfinishes false [] []
    simp [cmdUpdateFinish.decide, updateFinishFrom_version ha, hlength] at hfinish

theorem recreateReason_downgrade (ha : IsVersion a v) (hb : IsVersion b w)
    (hcompare : versionCompare a b = v.compare w) (offline offline' : Bool) (currentPort port : Text)
    : recreateReason (imageRef offline a) (imageRef offline' b) currentPort port = .downgrade ↔ v.Newer w := by
  have hv : IsRelease (imageRef offline a) offline v := ⟨a, rfl, ha⟩
  have hw : IsRelease (imageRef offline' b) offline' w := ⟨b, rfl, hb⟩
  rw [versionCompare_eq ha hb] at hcompare
  rw [← Version.compare_eq_gt, ← hcompare]
  have hcompared := @compared ⟨imageRef offline a, currentPort, [], []⟩ ⟨imageRef offline' b, port, [], []⟩
    hw.parsed.repo hw.parsed.tagged
  have hunique {offline₁ offline₂ : Bool} {v' w' : Version} (hv' : IsRelease (imageRef offline a) offline₁ v')
      (hw' : IsRelease (imageRef offline' b) offline₂ w') : v'.order w' = v.order w := by
    rw [(hv.unique hv').2, (hw.unique hw').2]
  dsimp only at hcompared
  generalize recreateReason (imageRef offline a) (imageRef offline' b) currentPort port = comparison at hcompared
  cases hcompared with
  | same hsame =>
    have himage : imageRef offline a = imageRef offline' b := hsame
    have hsame' : v = w := (hv.unique (himage ▸ hw)).2
    have hself : v.compare v ≠ .gt := by
      rw [ne_eq, Version.compare_eq_gt]
      exact not_newer_self v
    subst hsame'
    simp [moved_ne_downgrade, hcompare, hself]
  | replaced _ hnone => exact absurd ⟨offline, v, offline', w, hv, hw⟩ hnone
  | newer _ hv' hw' horder =>
    rw [hunique hv' hw'] at horder
    simp [horder]
  | older _ hv' hw' horder =>
    rw [hunique hv' hw'] at horder
    simp [horder]
  | equal _ hv' hw' horder =>
    rw [hunique hv' hw'] at horder
    simp [horder, sameRelease_ne_downgrade]

end Guards

/--
The client orders two releases right exactly if their numbers overflow such that the order stays, and `update
--finish` hears of the newer one. The order stays where the first numbers in which they differ do not overflow.
-/
theorem ordersReleases_iff {a b : Text} {v w : Version} (ha : IsVersion a v) (hb : IsVersion b w)
    : (OrdersReleases a b v w ↔ v.InOrder w ∧ (v.Newer w → a.length ≤ 64)) ∧ (v.Fits w → v.InOrder w) := by
  have horder : versionCompare a b = v.words.compare w.words := by
    rw [versionCompare_eq ha hb, Version.order_eq]
  have hsemver := isSemver_iff.mpr ⟨v, ha⟩
  have hsemver' := isSemver_iff.mpr ⟨w, hb⟩
  refine ⟨⟨fun h => ⟨?_, fun hnewer => ?_⟩, fun ⟨hwords, hlength⟩ => ?_⟩, Version.inOrder_of_fits⟩
  . rw [Version.inOrder_iff, ← horder]
    exact h.compare_eq
  . exact (finish_untouched_iff ha (h.downgrades.mpr hnewer)).mp (h.finishes hnewer)
  . have hcompare := horder.trans (Version.inOrder_iff.mp hwords)
    have hdowngrades := updateIsDowngrade_iff hsemver hsemver' hcompare
    exact {
      compare_eq := hcompare
      upgrades := fun args => decide_upgrade hsemver' hcompare
      guarded := by
        intro hnewer args
        apply proceed_guarded hsemver'
        rw [hcompare]
        exact Version.compare_eq_lt.mpr hnewer
      downgrades := hdowngrades
      finishes := fun hnewer => (finish_untouched_iff ha (hdowngrades.mpr hnewer)).mpr (hlength hnewer)
      refuses := recreateReason_downgrade ha hb hcompare
    }

theorem ordersReleases_patch : OrdersReleases "0.5.0".toList "0.10.0".toList ⟨0, 5, 0⟩ ⟨0, 10, 0⟩ := by
  have hv : IsVersion "0.5.0".toList ⟨0, 5, 0⟩ :=
    ⟨"0".toList, "5".toList, "0".toList, by decide, by decide, by decide, by decide, rfl⟩
  have hw : IsVersion "0.10.0".toList ⟨0, 10, 0⟩ :=
    ⟨"0".toList, "10".toList, "0".toList, by decide, by decide, by decide, by decide, rfl⟩
  have horders := ordersReleases_iff hv hw
  exact horders.1.mpr ⟨horders.2 (by unfold Version.Fits; decide), fun _ => by decide⟩

/--
A major version that is zero in a word: the older release would be called an upgrade.
-/
theorem not_ordersReleases
    : ¬∀ a b v w, IsVersion a v → IsVersion b w → OrdersReleases a b v w := by
  intro h
  have hv : IsVersion "0.9.0".toList ⟨0, 9, 0⟩ :=
    ⟨"0".toList, "9".toList, "0".toList, by decide, by decide, by decide, by decide, rfl⟩
  have hw : IsVersion "18446744073709551616.8.4".toList ⟨18446744073709551616, 8, 4⟩ :=
    ⟨"18446744073709551616".toList, "8".toList, "4".toList, by decide, by decide, by decide, by decide, rfl⟩
  have hupgrades := (h _ _ _ _ hv hw).upgrades ⟨[], false, false, .unset⟩
  exact absurd (hupgrades.mp (by decide)) (by unfold Version.Newer; decide)

end Kerghan.Standalone
