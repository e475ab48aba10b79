import Kerghan.Core.Impl.ClientRequest

/-!
This module contains the proof that a client cannot choose its own address: what it resolves to depends
on the trusted end of the `X-Forwarded-For` header only, and the proxy overwrites this header.
-/

namespace Kerghan

/--
A setting that is a non-negative safe integer, and its value.
-/
inductive RawValue.Denotes : RawValue → Nat → Prop where
  | number {n : Nat} (hsafe : (n : Int) ≤ MAX_SAFE_INTEGER) : Denotes (.number (.integer n)) n
  | string {text : String} (hdigits : isNonNegativeInteger (trim text) = true)
    (hsafe : (numberOfDigits (trim text) : Int) ≤ MAX_SAFE_INTEGER)
    : Denotes (.string text) (numberOfDigits (trim text))

theorem isValidHops_iff {n : JsNumber}
    : isValidHops n = true ↔ ∃ hops : Nat, n = .integer hops ∧ (hops : Int) ≤ MAX_SAFE_INTEGER := by
  constructor
  . intro hvalid
    cases n with
    | other => simp [isValidHops] at hvalid
    | integer n =>
      simp only [isValidHops, isSafeInteger, Bool.and_eq_true, decide_eq_true_eq] at hvalid
      obtain ⟨⟨_, hsafe⟩, hpos⟩ := hvalid
      obtain ⟨hops, rfl⟩ := Int.eq_ofNat_of_zero_le hpos
      exact ⟨hops, rfl, hsafe⟩
  . rintro ⟨hops, rfl, hsafe⟩
    simp only [isValidHops, isSafeInteger, Bool.and_eq_true, decide_eq_true_eq]
    have hpos : (0 : Int) ≤ hops := Int.natCast_nonneg hops
    unfold MAX_SAFE_INTEGER at hsafe ⊢
    omega

theorem parseTrustedProxyHops_cases (raw : RawValue)
    : (∃ hops, raw.Denotes hops ∧ parseTrustedProxyHops raw = .integer hops) ∨
        (∀ hops, ¬raw.Denotes hops) ∧ parseTrustedProxyHops raw = DEFAULT_TRUSTED_PROXY_HOPS := by
  cases raw with
  | number n =>
    unfold parseTrustedProxyHops
    dsimp only
    split
    . next hvalid =>
      obtain ⟨hops, rfl, hsafe⟩ := isValidHops_iff.mp hvalid
      exact Or.inl ⟨hops, .number hsafe, rfl⟩
    . next hinvalid =>
      refine Or.inr ⟨fun hops hdenotes => ?_, rfl⟩
      cases hdenotes with
      | number hsafe => exact hinvalid (isValidHops_iff.mpr ⟨hops, rfl, hsafe⟩)
  | string text =>
    unfold parseTrustedProxyHops
    dsimp only
    split
    . next hdigits =>
      refine Or.inr ⟨fun hops hdenotes => ?_, rfl⟩
      cases hdenotes with
      | string hdigits' => simp [hdigits'] at hdigits
    . next hdigits =>
      simp only [Bool.not_eq_true', Bool.not_eq_false] at hdigits
      split
      . next hvalid =>
        obtain ⟨hops, hhops, hsafe⟩ := isValidHops_iff.mp hvalid
        rw [JsNumber.integer.injEq, Int.natCast_inj] at hhops
        exact Or.inl ⟨_, .string hdigits (hhops ▸ hsafe), rfl⟩
      . next hinvalid =>
        refine Or.inr ⟨fun hops hdenotes => ?_, rfl⟩
        cases hdenotes with
        | string _ hsafe => exact hinvalid (isValidHops_iff.mpr ⟨_, rfl, hsafe⟩)
  | other =>
    refine Or.inr ⟨fun hops hdenotes => ?_, rfl⟩
    cases hdenotes

def trustedHops (hops : Nat) (value : String) : List String :=
  (forwardedHops value).drop ((forwardedHops value).length - hops)

theorem extractIp_eq {hops : Nat} (hpos : hops ≠ 0) (hsafe : (hops : Int) ≤ MAX_SAFE_INTEGER)
    (value : String) (fallback : Option String)
    : extractIp (some (.one value)) fallback (.integer hops) =
        some ((trustedHops hops value).head?.getD (fallback.getD "")) := by
  unfold extractIp
  dsimp only
  by_cases hvalue : value = ""
  . have hempty : forwardedHops "" = [] := by decide
    rw [hvalue, trustedHops, hempty, List.drop_nil]
    rfl
  . rw [show (some value).filter (· ≠ "") = some value by simp [hvalue]]
    dsimp only
    split
    . next hnone => simp [trustedHops, hnone]
    . next hsome =>
      rw [if_pos (isValidHops_iff.mpr ⟨hops, rfl, hsafe⟩)]
      dsimp only
      have hlength := List.length_pos_iff.mpr hsome
      have hindex : (max 0 ((forwardedHops value).length - hops : Int)).toNat =
          (forwardedHops value).length - hops := by omega
      have hlt : (forwardedHops value).length - hops < (forwardedHops value).length := by omega
      rw [hindex, trustedHops, List.head?_drop, List.getElem?_eq_getElem hlt]
      rfl

structure PeerAddress where
  text : String
  nonempty : text ≠ ""
  noComma : ',' ∉ text.toList
  trimmed : trim text = text

theorem forwardedHops_peer (peer : PeerAddress) : forwardedHops peer.text = [peer.text] := by
  unfold forwardedHops split
  rw [List.splitOn_eq_singleton peer.noComma]
  simp [peer.trimmed, peer.nonempty]

section Proxy

open SetClientIpMiddleware

theorem mem_foldl_erase {p : String → Prop} [DecidablePred p] (names : List String) {name : String}
    (request : ProcessingRequest)
    : name ∈ names.foldl (fun request name => if p name then request.erase name else request) request ↔
        name ∈ request ∧ ¬(name ∈ names ∧ p name) := by
  induction names generalizing request with
  | nil => simp
  | cons first names ih =>
    rw [List.foldl_cons, ih]
    by_cases hfirst : p first
    . rw [if_pos hfirst, AList.mem_erase, List.mem_cons]
      by_cases hname : name = first
      . simp [hname, hfirst]
      . simp [hname]
    . rw [if_neg hfirst, List.mem_cons]
      by_cases hname : name = first
      . simp [hname, hfirst]
      . simp [hname]

/--
Whatever the client has sent, the backend receives one `X-Forwarded-For` header, and the proxy has
written it.
-/
theorem received_processRequest (remoteAddr : String) (request : ProcessingRequest)
    (remoteAddress : Option String)
    : ((processRequest remoteAddr request).received remoteAddress).headers "x-forwarded-for" =
        some (.one remoteAddr) := by
  have htarget : toLowerCase HEADER_NAME = "x-forwarded-for" := by decide
  have hremoved : ∀ name ∈ request.keys.foldl
      (fun request name => if toLowerCase name = toLowerCase HEADER_NAME then request.erase name else request)
      request, toLowerCase name ≠ "x-forwarded-for" := by
    intro name hname hlower
    rw [mem_foldl_erase] at hname
    exact hname.2 ⟨AList.mem_keys.mp hname.1, hlower.trans htarget.symm⟩
  unfold ProcessingRequest.received processRequest
  dsimp only
  generalize request.keys.foldl _ request = removed at hremoved
  have hfresh : HEADER_NAME ∉ removed := fun hmem => hremoved _ hmem htarget
  have hothers : removed.entries.filter (fun header => toLowerCase header.1 = "x-forwarded-for") = [] := by
    rw [List.filter_eq_nil_iff]
    intro header hheader
    have hmem : header.1 ∈ removed := AList.mem_keys.mpr (List.mem_map_of_mem hheader)
    simpa using hremoved _ hmem
  rw [AList.entries_insert_of_notMem hfresh, List.filter_cons_of_pos (by simp [htarget]), hothers]
  simp

end Proxy

/--
What a setting of `hops` trusted proxies promises.
-/
structure Unspoofable (hops : Nat) : Prop where
  /-- Nothing but the trusted entries and the socket's peer decides. -/
  untrusted : ∀ (req req' : Request) (value value' : String),
    req.headers "x-forwarded-for" = some (.one value) →
      req'.headers "x-forwarded-for" = some (.one value') →
        req.remoteAddress = req'.remoteAddress → trustedHops hops value = trustedHops hops value' →
          (extractClientRequestInfo req (.integer hops)).ip =
            (extractClientRequestInfo req' (.integer hops)).ip
  /-- Behind the proxy, the address is the one that the proxy has seen. -/
  proxied : ∀ (request : ProcessingRequest) (peer : PeerAddress) (remoteAddress : Option String),
    (extractClientRequestInfo
      ((SetClientIpMiddleware.processRequest peer.text request).received remoteAddress)
      (.integer hops)).ip = some peer.text

/--
Whatever the number of trusted proxies is set to, it counts as a number of hops, and unless this is `0`,
a client cannot choose its address.
-/
theorem client_ip_unspoofable (raw : RawValue)
    : ∃ hops : Nat,
        parseTrustedProxyHops raw = .integer hops
          ∧
        (raw.Denotes hops ∨ (∀ n, ¬raw.Denotes n) ∧ hops = 1)
          ∧
        (hops ≠ 0 → Unspoofable hops) := by
  have hunspoofable : ∀ hops : Nat, (hops : Int) ≤ MAX_SAFE_INTEGER → hops ≠ 0 → Unspoofable hops := by
    intro hops hsafe hpos
    constructor
    . intro req req' value value' hvalue hvalue' haddress htrusted
      unfold extractClientRequestInfo
      dsimp only
      rw [hvalue, hvalue', haddress, extractIp_eq hpos hsafe, extractIp_eq hpos hsafe, htrusted]
    . intro request peer remoteAddress
      unfold extractClientRequestInfo
      dsimp only
      rw [received_processRequest, extractIp_eq hpos hsafe, trustedHops, forwardedHops_peer]
      rw [show [peer.text].length - hops = 0 by simp; omega]
      rfl
  rcases parseTrustedProxyHops_cases raw with ⟨hops, hdenotes, hparsed⟩ | ⟨hnone, hparsed⟩
  . refine ⟨hops, hparsed, Or.inl hdenotes, hunspoofable hops ?_⟩
    cases hdenotes with
    | number hsafe => exact hsafe
    | string _ hsafe => exact hsafe
  . exact ⟨1, hparsed, Or.inr ⟨hnone, rfl⟩, hunspoofable 1 (by decide)⟩

end Kerghan
