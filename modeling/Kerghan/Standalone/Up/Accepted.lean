import Kerghan.Standalone.Config.Parsers
import Kerghan.Standalone.Impl.Up

/-!
This module contains the proof that whatever `up` asks for has been accepted by the validators.
-/

namespace Kerghan.Standalone

open Shell

structure UpSettings where
  offline : Bool
  tag : Text
  port : Text
  bind : Text
  autoLogin : Text
  tag_valid : validImageTag tag = true
  port_valid : validPort port = true
  bind_valid : validBind bind = true

def UpSettings.wanted (settings : UpSettings) : Wanted where
  image := imageRef settings.offline settings.tag
  port := settings.port
  bind := settings.bind
  autoLogin := settings.autoLogin

section Accepted

variable [Ctype] {cfg cfg' : Loaded}

def Valid (cfg : Loaded) : Prop :=
  ∀ key, cfg.value key = [] ∨ validConfigValue key (cfg.value key) = true

theorem Valid.line (hvalid : Valid cfg) {raw : Text} {n : Nat} (h : loadConfig.line cfg raw n = .ok cfg')
    : Valid cfg' := by
  rw [loadConfig_line] at h
  cases hline : configLine raw with
  | blank =>
    rw [hline] at h
    cases h
    exact hvalid
  | template k =>
    rw [hline] at h
    cases h
    exact hvalid
  | noEq =>
    rw [hline] at h
    cases h
  | active k value =>
    rw [hline] at h
    dsimp only at h
    split at h
    . next haccepted =>
      cases h
      simp only [Bool.or_eq_true, decide_eq_true_eq] at haccepted
      rw [Valid, Function.forall_update_iff cfg.value fun key value => value = [] ∨ validConfigValue key value = true]
      exact ⟨haccepted, fun key _ => hvalid key⟩
    . cases h
  | unknown key value =>
    rw [hline] at h
    cases h
    exact hvalid

theorem Valid.lines (hvalid : Valid cfg) (lines : List (Text × Nat))
    (h : lines.foldlM (fun loaded (raw, n) => loadConfig.line loaded raw n) cfg = .ok cfg')
    : Valid cfg' := by
  induction lines generalizing cfg with
  | nil =>
    cases h
    exact hvalid
  | cons first lines ih =>
    have ⟨raw, n⟩ := first
    rw [List.foldlM_cons] at h
    dsimp only at h
    cases hline : loadConfig.line cfg raw n with
    | error failure =>
      rw [hline] at h
      cases h
    | ok loaded =>
      rw [hline] at h
      exact ih (hvalid.line hline) h

theorem valid_of_loadConfig {text : Text} (h : loadConfig.text text = .ok cfg) : Valid cfg :=
  Valid.lines (fun _ => Or.inl rfl) _ h

omit [Ctype] in
theorem Valid.orDefault (hvalid : Valid cfg) (key : ConfigKey) {default : Text}
    (hdefault : validConfigValue key default = true)
    : validConfigValue key (orDefault (cfg.value key) default) = true := by
  unfold Standalone.orDefault
  split
  . exact hdefault
  . next hpresent =>
    cases hvalid key with
    | inl hempty => exact absurd hempty hpresent
    | inr hvalue => exact hvalue

omit [Ctype] in
/--
What `up` asks for has been accepted by the validators.
-/
theorem wanted_accepted (hvalid : Valid cfg) {flags : UpFlags} (hflags : flags.valid = true) (autoLogin : Text)
    : ∃ settings : UpSettings, cmdUp.wanted flags cfg autoLogin = settings.wanted := by
  simp only [UpFlags.valid, Bool.and_eq_true] at hflags
  have ⟨⟨hport, hbind⟩, _⟩ := hflags
  exact ⟨{
    offline := flags.offline || cmdUp.effective cfg autoLogin .variant = "offline".toList
    tag := cmdUp.effective cfg autoLogin .imageTag
    port := (cmdUp.wanted flags cfg autoLogin).port
    bind := (cmdUp.wanted flags cfg autoLogin).bind
    autoLogin := autoLogin
    tag_valid := hvalid.orDefault .imageTag (by decide)
    port_valid := by
      unfold cmdUp.wanted
      dsimp only
      cases hflag : flags.port with
      | none => exact hvalid.orDefault .port (by decide)
      | some port =>
        rw [hflag] at hport
        exact hport
    bind_valid := by
      unfold cmdUp.wanted
      dsimp only
      cases hflag : flags.bind with
      | none =>
        apply hvalid.orDefault .bind
        split
        . decide
        . decide
      | some bind =>
        rw [hflag] at hbind
        exact hbind
  }, rfl⟩

end Accepted

end Kerghan.Standalone
