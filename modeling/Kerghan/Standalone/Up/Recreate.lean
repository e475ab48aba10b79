import Kerghan.Async.Contract
import Kerghan.Standalone.Up.Accepted
import Kerghan.Standalone.Up.Version

/-!
This module contains when `up` recreates a container that runs: exactly if something differs, but for
numbers and addresses that are spelled in two ways, and numbers that the shell cannot hold.
-/

namespace Kerghan.Standalone

open Shell

structure Running where
  image : Text
  port : Text
  bind : Text
  autoLogin : Text

def Reports (running : Running) : (s : Step) × Reply s → Prop
  | ⟨.inspect .hostPort, reply⟩ => reply.getD [] = running.port
  | ⟨.inspect .hostIp, reply⟩ => orDefault (reply.getD []) "0.0.0.0".toList = running.bind
  | ⟨.inspect .env, reply⟩ =>
    (reply.elim "unknown".toList fun env => orDefault (runningAutoLogin.value env) "false".toList)
      = running.autoLogin
  | _ => True

/--
What `cmd_up` takes from the two comparisons.
-/
def decision (running : Running) (wanted : Wanted) : Comparison :=
  match recreateReason running.image wanted.image running.port wanted.port with
  | .matching => settingsReason running.autoLogin wanted.autoLogin running.bind wanted.bind
  | .differs reason => .differs reason
  | .downgrade => .downgrade

def portNumber (port : Text) : Option Nat :=
  if isDigits port then some (decimal port) else none

def addressOf (bind : Text) : Option (List Nat) :=
  if (bind.splitOn '.').all isDigits && (bind.splitOn '.').length = 4 then
    some ((bind.splitOn '.').map decimal)
  else
    none

section

variable (running : Running) (wanted : Wanted)

def ShouldRefuse : Prop :=
  ∃ offline v offline' w, IsRelease running.image offline v ∧ IsRelease wanted.image offline' w ∧ v.Newer w

def Differs : Prop :=
  running.image ≠ wanted.image ∨ portNumber running.port ≠ portNumber wanted.port ∨
    addressOf running.bind ≠ addressOf wanted.bind ∨ running.autoLogin ≠ wanted.autoLogin

/--
What is promised about the decision of `up`.
-/
structure DecidesRight : Prop where
  refuses_iff : decision running wanted = .downgrade ↔ ShouldRefuse running wanted
  recreates_iff : (∃ reason, decision running wanted = .differs reason) ↔
    ¬ShouldRefuse running wanted ∧ Differs running wanted

/--
An equal port and an equal address are spelled alike, no version has a number that the shell confuses
with another, and two spellings of one version differ in something else.
-/
structure ToldApart : Prop where
  spelled : running.image = wanted.image → portNumber running.port = portNumber wanted.port →
    addressOf running.bind = addressOf wanted.bind → running.autoLogin = wanted.autoLogin →
      running.port = wanted.port ∧ running.bind = wanted.bind
  ordered : running.image ≠ wanted.image → ∀ offline v offline' w, IsRelease running.image offline v →
    IsRelease wanted.image offline' w → (v.order w = .gt ↔ v.Newer w)
  distinct : running.image ≠ wanted.image → ∀ offline v offline' w, IsRelease running.image offline v →
    IsRelease wanted.image offline' w → v.order w = .eq →
      offline ≠ offline' ∨ running.port ≠ wanted.port ∨ running.autoLogin ≠ wanted.autoLogin ∨
        running.bind ≠ wanted.bind

end

section Script

variable {running : Running} {wanted : Wanted} {events : List ((s : Step) × Reply s)}

theorem compare_returns {result : Except Failure Comparison}
    (h : (cmdUp.compare running.image wanted).Returns events result)
    (hreports : ∀ event ∈ events, Reports running event)
    : result = .ok (decision running wanted) := by
  obtain ⟨port, rest, hevents, hrest⟩ := Prog.returns_step h
  subst hevents
  obtain ⟨hport, hreports'⟩ := List.forall_mem_cons.mp hreports
  have hport' : port.getD [] = running.port := hport
  dsimp only [bind, pure, Prog.bind] at hrest
  rw [hport'] at hrest
  unfold decision
  cases hcompare : recreateReason running.image wanted.image running.port wanted.port with
  | downgrade =>
    rw [hcompare] at hrest
    exact (Prog.returns_pure hrest).2
  | differs reason =>
    rw [hcompare] at hrest
    exact (Prog.returns_pure hrest).2
  | matching =>
    rw [hcompare] at hrest
    obtain ⟨env, rest', hevents, hrest'⟩ := Prog.returns_step hrest
    subst hevents
    obtain ⟨henv, hreports''⟩ := List.forall_mem_cons.mp hreports'
    have hend (autoLogin : Text) (hautoLogin : autoLogin = running.autoLogin)
        (hrest : Prog.Returns (do
          let currentBind ← runningBind
          pure (settingsReason autoLogin wanted.autoLogin currentBind wanted.bind) : Script Comparison)
          rest' result)
        : result = .ok (settingsReason running.autoLogin wanted.autoLogin running.bind wanted.bind) := by
      obtain ⟨ip, rest'', hevents, hrest''⟩ := Prog.returns_step hrest
      subst hevents
      have hbind : orDefault (ip.getD []) "0.0.0.0".toList = running.bind :=
        (List.forall_mem_cons.mp hreports'').1
      obtain ⟨_, hresult⟩ := Prog.returns_pure hrest''
      rw [hresult, hautoLogin, hbind]
    cases env with
    | none => exact hend _ henv hrest'
    | some env => exact hend _ henv hrest'

end Script

section Decide

variable {running : Running} {settings : UpSettings}

theorem not_mem_tag (settings : UpSettings) : ':' ∉ settings.tag := by
  intro hmem
  have hvalid := settings.tag_valid
  simp only [validImageTag, Bool.and_eq_true, List.all_eq_true] at hvalid
  exact absurd (hvalid.1.1.2 _ hmem) (by decide)

theorem wanted_repo (settings : UpSettings) : beforeLast ':' settings.wanted.image = IMAGE_REPO := by
  unfold UpSettings.wanted
  dsimp only
  rw [imageRef_eq]
  apply beforeLast_append
  split
  . rw [List.mem_append, not_or]
    exact ⟨not_mem_tag settings, by decide⟩
  . exact not_mem_tag settings

theorem wanted_tagged (settings : UpSettings) : beforeLast ':' settings.wanted.image ≠ settings.wanted.image := by
  apply beforeLast_ne_of_mem
  unfold UpSettings.wanted
  dsimp only
  rw [imageRef_eq]
  simp

def sameRelease (running : Running) (wanted : Wanted) (offline offline' : Bool) : Comparison :=
  if offline ≠ offline' then
    .differs (.switching offline')
  else
    recreateReason.moved running.port wanted.port

inductive Compared (running : Running) (wanted : Wanted) : Comparison → Prop where
  | same (hsame : running.image = wanted.image)
    : Compared running wanted (recreateReason.moved running.port wanted.port)
  | replaced (hother : running.image ≠ wanted.image)
    (hnone : ¬∃ offline v offline' w, IsRelease running.image offline v ∧ IsRelease wanted.image offline' w)
    (reason : Reason)
    : Compared running wanted (.differs reason)
  | newer (hother : running.image ≠ wanted.image) {offline offline' : Bool} {v w : Version}
    (hv : IsRelease running.image offline v) (hw : IsRelease wanted.image offline' w) (horder : v.order w = .gt)
    : Compared running wanted .downgrade
  | older (hother : running.image ≠ wanted.image) {offline offline' : Bool} {v w : Version}
    (hv : IsRelease running.image offline v) (hw : IsRelease wanted.image offline' w) (horder : v.order w = .lt)
    (reason : Reason)
    : Compared running wanted (.differs reason)
  | equal (hother : running.image ≠ wanted.image) {offline offline' : Bool} {v w : Version}
    (hv : IsRelease running.image offline v) (hw : IsRelease wanted.image offline' w) (horder : v.order w = .eq)
    : Compared running wanted (sameRelease running wanted offline offline')

theorem compared (running : Running) {wanted : Wanted} (hrepo : beforeLast ':' wanted.image = IMAGE_REPO)
    (htagged : beforeLast ':' wanted.image ≠ wanted.image)
    : Compared running wanted (recreateReason running.image wanted.image running.port wanted.port) := by
  have hwanted := @isRelease_iff wanted.image
  rw [if_neg htagged] at hwanted
  unfold recreateReason
  extract_lets currentRepo currentTag currentVersion currentOffline wantedTag wantedVersion wantedOffline
  split
  . next hsame => exact .same hsame
  . next hother =>
    split
    . next hcurrent =>
      refine .replaced hother ?_ _
      intro ⟨offline, v, offline', w, hv, hw⟩
      have ⟨hrepo', hsemver⟩ := isRelease_iff.mpr ⟨offline, v, hv⟩
      simp only [Bool.or_eq_true, decide_eq_true_eq, Bool.not_eq_true'] at hcurrent
      cases hcurrent with
      | inl hrepo'' => exact hrepo'' hrepo'
      | inr hsemver' =>
        rw [hsemver] at hsemver'
        cases hsemver'
    . next hcurrent =>
      simp only [Bool.or_eq_true, decide_eq_true_eq, Bool.not_eq_true', not_or, not_not, Bool.not_eq_false]
        at hcurrent
      have ⟨offline, v, hv⟩ := isRelease_iff.mp hcurrent
      split
      . next hsemver =>
        refine .replaced hother ?_ _
        intro ⟨offline, v, offline', w, hv, hw⟩
        have hsemver' := (hwanted.mpr ⟨offline', w, hw⟩).2
        simp only [Bool.not_eq_true'] at hsemver
        rw [hsemver] at hsemver'
        cases hsemver'
      . next hsemver =>
        simp only [Bool.not_eq_true', Bool.not_eq_false] at hsemver
        have ⟨offline', w, hw⟩ := hwanted.mp ⟨hrepo, hsemver⟩
        have htag : currentTag = afterLast ':' running.image := if_neg hv.parsed.tagged
        have hversion : currentVersion = dropEnding OFFLINE (afterLast ':' running.image) := by rw [← htag]
        have hcompare : versionCompare currentVersion wantedVersion = v.order w := by
          rw [hversion]
          exact versionCompare_eq hv.parsed.version hw.parsed.version
        have hoffline : currentOffline = offline := by
          rw [← hv.parsed.variant, ← htag]
        have hoffline' : wantedOffline = offline' := hw.parsed.ending
        rw [hcompare, hoffline, hoffline']
        cases horder : v.order w with
        | gt => exact .newer hother hv hw horder
        | lt => exact .older hother hv hw horder _
        | eq => exact .equal hother hv hw horder

theorem moved_eq_matching {currentPort port : Text}
    : recreateReason.moved currentPort port = .matching ↔ currentPort = port := by
  unfold recreateReason.moved
  split
  . next hother => simpa using hother
  . next hsame => simpa using hsame

theorem settingsReason_eq_matching {currentAutoLogin autoLogin currentBind bind : Text}
    : settingsReason currentAutoLogin autoLogin currentBind bind = .matching ↔
        currentAutoLogin = autoLogin ∧ currentBind = bind := by
  unfold settingsReason
  split
  . next hother => simp [hother]
  . next hsame =>
    split
    . next hother => simp [hother]
    . next hsame' => simpa using ⟨not_not.mp hsame, not_not.mp hsame'⟩

theorem sameRelease_eq_matching {wanted : Wanted} {offline offline' : Bool}
    : sameRelease running wanted offline offline' = .matching ↔
        offline = offline' ∧ running.port = wanted.port := by
  unfold sameRelease
  split
  . next hother => simpa using fun heq => absurd heq hother
  . next hsame =>
    rw [moved_eq_matching]
    exact ⟨fun hport => ⟨not_not.mp hsame, hport⟩, fun h => h.2⟩

theorem moved_ne_downgrade (currentPort port : Text) : recreateReason.moved currentPort port ≠ .downgrade := by
  unfold recreateReason.moved
  split <;> simp

theorem sameRelease_ne_downgrade (running : Running) (wanted : Wanted) (offline offline' : Bool)
    : sameRelease running wanted offline offline' ≠ .downgrade := by
  unfold sameRelease
  split
  . simp
  . exact moved_ne_downgrade _ _

theorem settingsReason_ne_downgrade (currentAutoLogin autoLogin currentBind bind : Text)
    : settingsReason currentAutoLogin autoLogin currentBind bind ≠ .downgrade := by
  unfold settingsReason
  split
  . simp
  . split <;> simp

theorem decision_eq_downgrade {wanted : Wanted}
    : decision running wanted = .downgrade ↔
        recreateReason running.image wanted.image running.port wanted.port = .downgrade := by
  unfold decision
  cases recreateReason running.image wanted.image running.port wanted.port with
  | downgrade => rfl
  | differs reason => rfl
  | matching => simpa using settingsReason_ne_downgrade _ _ _ _

theorem decision_eq_matching {wanted : Wanted}
    : decision running wanted = .matching ↔
        recreateReason running.image wanted.image running.port wanted.port = .matching ∧
          running.autoLogin = wanted.autoLogin ∧ running.bind = wanted.bind := by
  unfold decision
  cases recreateReason running.image wanted.image running.port wanted.port with
  | downgrade => simp
  | differs reason => simp
  | matching => simp [settingsReason_eq_matching]

theorem decidesRight_iff {wanted : Wanted}
    : DecidesRight running wanted ↔
        (decision running wanted = .downgrade ↔ ShouldRefuse running wanted) ∧
          (¬ShouldRefuse running wanted → (decision running wanted = .matching ↔ ¬Differs running wanted)) := by
  have hdiffers : (∃ reason, decision running wanted = .differs reason) ↔
      decision running wanted ≠ .downgrade ∧ decision running wanted ≠ .matching := by
    cases decision running wanted <;> simp
  constructor
  . intro ⟨hrefuses, hrecreates⟩
    refine ⟨hrefuses, fun hrefused => ?_⟩
    rw [hdiffers, ne_eq, ne_eq, hrefuses] at hrecreates
    tauto
  . intro ⟨hrefuses, hmatches⟩
    refine ⟨hrefuses, ?_⟩
    rw [hdiffers, ne_eq, ne_eq, hrefuses]
    apply and_congr_right
    intro hrefused
    rw [hmatches hrefused, not_not]

theorem not_newer_self (v : Version) : ¬v.Newer v := by
  unfold Version.Newer
  omega

theorem shouldRefuse_iff {wanted : Wanted} {offline offline' : Bool} {v w : Version}
    (hv : IsRelease running.image offline v) (hw : IsRelease wanted.image offline' w)
    : ShouldRefuse running wanted ↔ v.Newer w := by
  constructor
  . intro ⟨offline₁, v', offline₂, w', hv', hw', hnewer⟩
    have hsame := (hv.unique hv').2
    have hsame' := (hw.unique hw').2
    subst hsame
    subst hsame'
    exact hnewer
  . intro hnewer
    exact ⟨offline, v, offline', w, hv, hw, hnewer⟩

theorem toldApart_iff {wanted : Wanted} {offline offline' : Bool} {v w : Version}
    (hother : running.image ≠ wanted.image) (hv : IsRelease running.image offline v)
    (hw : IsRelease wanted.image offline' w)
    : ToldApart running wanted ↔
        (v.order w = .gt ↔ v.Newer w) ∧
          (v.order w = .eq → offline ≠ offline' ∨ running.port ≠ wanted.port ∨
            running.autoLogin ≠ wanted.autoLogin ∨ running.bind ≠ wanted.bind) := by
  constructor
  . intro htold
    exact ⟨htold.ordered hother offline v offline' w hv hw, htold.distinct hother offline v offline' w hv hw⟩
  . intro ⟨hordered, hdistinct⟩
    exact {
      spelled := fun hsame => absurd hsame hother
      ordered := by
        intro _ offline₁ v' offline₂ w' hv' hw'
        have ⟨_, hsame⟩ := hv.unique hv'
        have ⟨_, hsame'⟩ := hw.unique hw'
        subst hsame
        subst hsame'
        exact hordered
      distinct := by
        intro _ offline₁ v' offline₂ w' hv' hw'
        have ⟨hoffline, hsame⟩ := hv.unique hv'
        have ⟨hoffline', hsame'⟩ := hw.unique hw'
        subst hoffline
        subst hoffline'
        subst hsame
        subst hsame'
        exact hdistinct
    }

end Decide

theorem decidesRight_iff_toldApart (running : Running) (settings : UpSettings)
    : DecidesRight running settings.wanted ↔ ToldApart running settings.wanted := by
  have hcompared := compared running (wanted_repo settings) (wanted_tagged settings)
  rw [decidesRight_iff, decision_eq_downgrade, decision_eq_matching]
  generalize settings.wanted = wanted at hcompared
  generalize recreateReason running.image wanted.image running.port wanted.port = comparison at hcompared
  -- the cases are what the two images say of their releases
  cases hcompared with
  | same hsame =>
    have hrefused : ¬ShouldRefuse running wanted := by
      intro ⟨offline, v, offline', w, hv, hw, hnewer⟩
      rw [hsame] at hv
      exact not_newer_self v ((hv.unique hw).2 ▸ hnewer)
    have hdiffers : ¬Differs running wanted ↔ portNumber running.port = portNumber wanted.port ∧
        addressOf running.bind = addressOf wanted.bind ∧ running.autoLogin = wanted.autoLogin := by
      simp [Differs, hsame]
    rw [moved_eq_matching, hdiffers]
    constructor
    . intro ⟨_, hmatches⟩
      exact {
        spelled := by
          intro _ hport haddress hautoLogin
          have hsame' := (hmatches hrefused).mpr ⟨hport, haddress, hautoLogin⟩
          exact ⟨hsame'.1, hsame'.2.2⟩
        ordered := fun hother => absurd hsame hother
        distinct := fun hother => absurd hsame hother
      }
    . intro htold
      refine ⟨iff_of_false (moved_ne_downgrade _ _) hrefused, fun _ => ?_⟩
      constructor
      . intro ⟨hport, hautoLogin, hbind⟩
        rw [hport, hbind, hautoLogin]
        exact ⟨rfl, rfl, rfl⟩
      . intro ⟨hport, haddress, hautoLogin⟩
        have hspelled := htold.spelled hsame hport haddress hautoLogin
        exact ⟨hspelled.1, hautoLogin, hspelled.2⟩
  | replaced hother hnone reason =>
    have hrefused : ¬ShouldRefuse running wanted := by
      intro ⟨offline, v, offline', w, hv, hw, _⟩
      exact hnone ⟨offline, v, offline', w, hv, hw⟩
    have hdiffers : Differs running wanted := Or.inl hother
    apply iff_of_true
    . exact ⟨iff_of_false (by simp) hrefused, fun _ => iff_of_false (by simp) (not_not.mpr hdiffers)⟩
    . exact {
        spelled := fun hsame => absurd hsame hother
        ordered := fun _ offline v offline' w hv hw => absurd ⟨offline, v, offline', w, hv, hw⟩ hnone
        distinct := fun _ offline v offline' w hv hw => absurd ⟨offline, v, offline', w, hv, hw⟩ hnone
      }
  | newer hother hv hw horder =>
    rw [toldApart_iff hother hv hw, shouldRefuse_iff hv hw, horder]
    constructor
    . intro ⟨hrefuses, _⟩
      exact ⟨by simpa using hrefuses, by simp⟩
    . intro ⟨hordered, _⟩
      have hnewer := hordered.mp rfl
      exact ⟨iff_of_true rfl hnewer, fun hrefused => absurd hnewer hrefused⟩
  | older hother hv hw horder reason =>
    have hdiffers : Differs running wanted := Or.inl hother
    rw [toldApart_iff hother hv hw, shouldRefuse_iff hv hw, horder]
    constructor
    . intro ⟨hrefuses, _⟩
      exact ⟨by simpa using hrefuses, by simp⟩
    . intro ⟨hordered, _⟩
      exact ⟨by simpa using hordered, fun _ => iff_of_false (by simp) (not_not.mpr hdiffers)⟩
  | @equal hother offline offline' v w hv hw horder =>
    have hdiffers : Differs running wanted := Or.inl hother
    rw [toldApart_iff hother hv hw, shouldRefuse_iff hv hw, horder, sameRelease_eq_matching]
    have hdowngrade := sameRelease_ne_downgrade running wanted offline offline'
    simp only [hdowngrade, false_iff, reduceCtorEq, hdiffers, not_true_eq_false, iff_false, forall_const]
    apply and_congr_right
    intro hnewer
    simp only [hnewer, not_false_eq_true, forall_const, not_and, ne_eq]
    rw [and_imp, imp_iff_not_or, imp_iff_not_or, imp_iff_not_or]

def canonicalNumber (digits : Text) : Text :=
  Nat.toDigits 10 (decimal digits)

def canonicalAddress (bind : Text) : Text :=
  ['.'].intercalate ((bind.splitOn '.').map canonicalNumber)

/--
What Docker reports of a container that has been started with these settings.
-/
def UpSettings.published (settings : UpSettings) : Running where
  image := settings.wanted.image
  port := canonicalNumber settings.port
  bind := canonicalAddress settings.bind
  autoLogin := settings.autoLogin

/--
`up` decides right exactly if what runs and what is wanted can be told apart by their spelling, so a
second `up` leaves the container alone exactly if the port and the address are spelled as Docker does.
-/
theorem upDecides_iff (settings : UpSettings)
    : (∀ running, DecidesRight running settings.wanted ↔ ToldApart running settings.wanted)
        ∧
      (decision settings.published settings.wanted = .matching ↔
        canonicalNumber settings.port = settings.port ∧ canonicalAddress settings.bind = settings.bind) := by
  refine ⟨fun running => decidesRight_iff_toldApart running settings, ?_⟩
  have hmoved : recreateReason settings.published.image settings.wanted.image settings.published.port
      settings.wanted.port = recreateReason.moved settings.published.port settings.wanted.port := by
    rw [recreateReason]
    exact if_pos rfl
  rw [decision_eq_matching, hmoved, moved_eq_matching]
  exact ⟨fun ⟨hport, _, hbind⟩ => ⟨hport, hbind⟩, fun ⟨hport, hbind⟩ => ⟨hport, rfl, hbind⟩⟩

def paddedPort : UpSettings where
  offline := false
  tag := KERGHAN_VERSION
  port := "03000".toList
  bind := DEFAULT_BIND_AUTO_LOGIN
  autoLogin := "true".toList
  tag_valid := by decide
  port_valid := by decide
  bind_valid := by decide

/--
A container with the same settings that runs the image `0.08.4`.
-/
def paddedVersion : Running where
  image := imageRef false "0.08.4".toList
  port := paddedPort.port
  bind := paddedPort.bind
  autoLogin := paddedPort.autoLogin

theorem not_decidesRight
    : ¬DecidesRight paddedPort.published paddedPort.wanted ∧ ¬DecidesRight paddedVersion paddedPort.wanted := by
  constructor
  . rw [decidesRight_iff_toldApart]
    intro htold
    have hspelled := htold.spelled rfl (by decide) (by decide) rfl
    exact absurd hspelled.1 (by decide)
  . rw [decidesRight_iff_toldApart]
    intro htold
    have hdistinct := htold.distinct (by decide) false ⟨0, 8, 4⟩ false ⟨0, 8, 4⟩
      ⟨"0.08.4".toList, rfl, "0".toList, "08".toList, "4".toList, by decide, by decide, by decide, by decide, rfl⟩
      ⟨KERGHAN_VERSION, rfl, "0".toList, "8".toList, "4".toList, by decide, by decide, by decide, by decide, rfl⟩
      (by decide)
    simp [paddedVersion, UpSettings.wanted] at hdistinct

end Kerghan.Standalone
