import Kerghan.Auth.Impl.Allowlist

/-!
This module contains the proof that the allowlist which is enforced is the one that is reported: an
address is allowed if and only if one of the reported entries matches it.
-/

namespace Kerghan

section

variable [Net]

/--
What the code relies on: a block list accepts a rule or refuses it whatever other rules it has, and
covers the addresses of its rules. `accepts` and `covers` say which rules and addresses these are.
-/
structure Net.Exact (accepts : AllowlistRule → Bool)
    (covers : AllowlistRule → String → IpFamily → Bool) : Prop where
  addRule_isSome : ∀ blockList rule, (addRule blockList rule).isSome = accepts rule
  check_new : ∀ address family, Net.check Net.new address family = false
  check_addRule : ∀ blockList rule blockList', addRule blockList rule = some blockList' →
    ∀ address family,
      Net.check blockList' address family = (Net.check blockList address family || covers rule address family)
  /-- The loopback addresses are addresses of their families, which can be added to a list. -/
  loopback : Net.isIP "127.0.0.1" = 4 ∧ Net.isIP "::1" = 6 ∧
    accepts ⟨"127.0.0.1", .ipv4, none⟩ = true ∧ accepts ⟨"::1", .ipv6, none⟩ = true
  /-- IPv4 addresses are in dot-decimal notation. -/
  dotted : ∀ address, Net.isIP address = 4 → isDotted address = true

def clientAddress (ip : String) : Option (String × IpFamily) :=
  (familyOf (normalizeIp (trim ip))).map fun family => (normalizeIp (trim ip), family)

variable {accepts : AllowlistRule → Bool} {covers : AllowlistRule → String → IpFamily → Bool}

/--
The entry is well formed, and its rule covers the client's address.
-/
def EntryMatches (covers : AllowlistRule → String → IpFamily → Bool) (entry ip : String) : Prop :=
  ∃ rule address family,
    parseAllowlistEntry entry = some rule
      ∧
    clientAddress ip = some (address, family)
      ∧
    covers rule address family = true

/--
An address is allowed by a list that has been built from `entries`, as it is told here.
-/
structure Enforced (covers : AllowlistRule → String → IpFamily → Bool) (entries : List String)
    (allowlist : Net.BlockList) : Prop where
  reported : ∀ ip, isInAllowlist allowlist ip = true ↔
    ∃ entry ∈ effectiveAllowlistEntries entries, EntryMatches covers entry ip
  configured : (∃ entry ∈ entries, parseAllowlistEntry entry ≠ none) → ∀ ip,
    isInAllowlist allowlist ip = true ↔ ∃ entry ∈ entries, EntryMatches covers entry ip
  loopback : (∀ entry ∈ entries, parseAllowlistEntry entry = none) → ∀ ip,
    isInAllowlist allowlist ip = true ↔ ∃ entry ∈ LOOPBACK_ADDRESSES, EntryMatches covers entry ip
  malformed : ∀ before entry after, entries = before ++ entry :: after →
    parseAllowlistEntry entry = none →
      (∀ ip, ¬EntryMatches covers entry ip) ∧
        ∃ allowlist', buildAllowlist (before ++ after) = some allowlist' ∧
          ∀ ip, isInAllowlist allowlist ip = isInAllowlist allowlist' ip
  mapped : ∀ start address, toLowerCase start = "::ffff:" → Net.isIP address = 4 →
    isInAllowlist allowlist (start ++ address) = isInAllowlist allowlist address

section Mapped

omit [Net]

theorem mem_splitOn {separator c : Char} {text : List Char} (hc : c ∈ text)
    : c = separator ∨ ∃ piece ∈ text.splitOn separator, c ∈ piece := by
  induction text with
  | nil => simp at hc
  | cons first text ih =>
    obtain ⟨head, tail, hpieces⟩ := List.exists_cons_of_ne_nil (List.splitOn_ne_nil separator text)
    rw [List.splitOn_cons_eq_if_modifyHead]
    rcases List.mem_cons.mp hc with rfl | hrest
    . by_cases hsep : c = separator
      . exact Or.inl hsep
      . right
        rw [if_neg (by simpa using hsep), hpieces]
        exact ⟨c :: head, List.mem_cons_self .., List.mem_cons_self ..⟩
    . rcases ih hrest with hsep | ⟨piece, hpiece, hmem⟩
      . exact Or.inl hsep
      . right
        split
        . exact ⟨piece, List.mem_cons_of_mem _ hpiece, hmem⟩
        . rw [hpieces] at hpiece ⊢
          rcases List.mem_cons.mp hpiece with rfl | htail
          . exact ⟨first :: piece, List.mem_cons_self .., List.mem_cons_of_mem _ hmem⟩
          . exact ⟨piece, List.mem_cons_of_mem _ htail, hmem⟩

theorem isDigit_of_mem_dotted {text : String} (h : isDotted text = true) {c : Char}
    (hc : c ∈ text.toList)
    : c = '.' ∨ c.isDigit = true := by
  simp only [isDotted, Bool.and_eq_true, List.all_eq_true] at h
  rcases (mem_splitOn hc : c = '.' ∨ _) with hdot | ⟨piece, hpiece, hmem⟩
  . exact Or.inl hdot
  . right
    have hprefix := h.2 (String.ofList piece) (List.mem_map_of_mem hpiece)
    simp only [isPrefix, String.toList_ofList, Bool.and_eq_true, List.all_eq_true] at hprefix
    exact hprefix.2 c hmem

theorem isDigit_range {c : Char} (h : c.isDigit = true) : 48 ≤ c.toNat ∧ c.toNat ≤ 57 := by
  simp only [Char.isDigit, Bool.and_eq_true, decide_eq_true_eq] at h
  exact h

theorem isSpace_of_lt {c : Char} (hlow : 32 < c.toNat) (hhigh : c.toNat < 160) : isSpace c = false := by
  simp only [isSpace, Bool.or_eq_false_iff, Bool.and_eq_false_iff, decide_eq_false_iff_not,
    beq_eq_false_iff_ne, ne_eq]
  omega

theorem toLower_cases (c : Char) : (65 ≤ c.toNat ∧ c.toNat ≤ 90) ∨ c.toLower = c := by
  unfold Char.toLower
  split
  . next hupper => exact Or.inl hupper
  . exact Or.inr rfl

theorem isSpace_of_mapped {c : Char} (h : c.toLower ∈ "::ffff:".toList) : isSpace c = false := by
  rcases toLower_cases c with ⟨hlow, hhigh⟩ | hsame
  . exact isSpace_of_lt (by omega) (by omega)
  . rw [hsame] at h
    have hvalues : c = ':' ∨ c = 'f' := by
      simp at h
      tauto
    rcases hvalues with rfl | rfl
    . exact isSpace_of_lt (by decide) (by decide)
    . exact isSpace_of_lt (by decide) (by decide)

theorem of_mem_dotted {text : String} (h : isDotted text = true) {c : Char} (hc : c ∈ text.toList)
    : isSpace c = false ∧ c.toLower ≠ ':' := by
  rcases isDigit_of_mem_dotted h hc with rfl | hdigit
  . decide
  . obtain ⟨hlow, hhigh⟩ := isDigit_range hdigit
    refine ⟨isSpace_of_lt (by omega) (by omega), ?_⟩
    rcases toLower_cases c with ⟨hupper, _⟩ | hsame
    . omega
    . rw [hsame]
      rintro rfl
      exact absurd hhigh (by decide)

theorem trim_dotted {text : String} (h : isDotted text = true) : trim text = text :=
  trim_eq_self fun _ hc => (of_mem_dotted h hc).1

theorem mappedTail_dotted {text : String} (h : isDotted text = true) : mappedTail text = none := by
  unfold mappedTail
  dsimp only
  refine if_neg fun hmapped => ?_
  have hstart : toLowerCase (String.ofList (text.toList.take 7)) = "::ffff:" := by
    simp only [Bool.and_eq_true, decide_eq_true_eq] at hmapped
    exact hmapped.1
  have hchars : (text.toList.take 7).map Char.toLower = "::ffff:".toList := by
    have := congrArg String.toList hstart
    simpa [toLowerCase] using this
  have hfirst : ':' ∈ (text.toList.take 7).map Char.toLower := by
    rw [hchars]
    decide
  obtain ⟨c, hc, hlower⟩ := List.mem_map.mp hfirst
  exact (of_mem_dotted h (List.mem_of_mem_take hc)).2 hlower

theorem mappedTail_mapped {start text : String} (hstart : toLowerCase start = "::ffff:")
    (h : isDotted text = true)
    : trim (start ++ text) = start ++ text ∧ mappedTail (start ++ text) = some text := by
  have hchars : start.toList.map Char.toLower = "::ffff:".toList := by
    have := congrArg String.toList hstart
    simpa [toLowerCase] using this
  have hlength : start.toList.length = 7 := by
    rw [← List.length_map (f := Char.toLower), hchars]
    decide
  constructor
  . apply trim_eq_self
    intro c hc
    rw [String.toList_append] at hc
    rcases List.mem_append.mp hc with hc | hc
    . apply isSpace_of_mapped
      rw [← hchars]
      exact List.mem_map_of_mem hc
    . exact (of_mem_dotted h hc).1
  . unfold mappedTail
    dsimp only
    rw [String.toList_append, ← hlength, List.take_left, List.drop_left, String.ofList_toList,
      String.ofList_toList]
    simp [hstart, h]

end Mapped

section Lists

variable (hnet : Net.Exact accepts covers)

include hnet

theorem normalizeIp_dotted {address : String} (h : Net.isIP address = 4)
    : normalizeIp (trim address) = address := by
  have hdotted := hnet.dotted address h
  rw [trim_dotted hdotted, normalizeIp, mappedTail_dotted hdotted]

theorem normalizeIp_mapped {start address : String} (hstart : toLowerCase start = "::ffff:")
    (h : Net.isIP address = 4)
    : normalizeIp (trim (start ++ address)) = address := by
  obtain ⟨htrim, htail⟩ := mappedTail_mapped hstart (hnet.dotted address h)
  rw [htrim, normalizeIp, htail]
  exact if_pos h

theorem parseAllowlistEntry_eq_some {entry : String} {rule : AllowlistRule}
    : parseAllowlistEntry entry = some rule ↔ parseRule entry = some rule ∧ accepts rule = true := by
  unfold parseAllowlistEntry
  cases parseRule entry with
  | none => simp
  | some rule' =>
    rw [Option.bind_eq_bind, Option.bind_some, hnet.addRule_isSome]
    constructor
    . intro h
      split at h
      . next haccepted =>
        rw [Option.some.injEq] at h ⊢
        exact ⟨h, h ▸ haccepted⟩
      . simp at h
    . rintro ⟨h, haccepted⟩
      rw [Option.some.injEq] at h
      rw [h, if_pos haccepted]

theorem check_foldl {rules : List AllowlistRule} (haccepted : ∀ rule ∈ rules, accepts rule = true)
    (blockList : Net.BlockList) (address : String) (family : IpFamily)
    : Net.check (rules.foldl (fun blockList rule => (addRule blockList rule).getD blockList) blockList)
        address family =
      (Net.check blockList address family || rules.any fun rule => covers rule address family) := by
  induction rules generalizing blockList with
  | nil => simp
  | cons rule rules ih =>
    have hadded := hnet.addRule_isSome blockList rule
    rw [haccepted rule (List.mem_cons_self ..)] at hadded
    obtain ⟨blockList', hblockList'⟩ := Option.isSome_iff_exists.mp hadded
    rw [List.foldl_cons, hblockList', Option.getD_some, List.any_cons,
      ih fun rule hrule => haccepted rule (List.mem_cons_of_mem _ hrule),
      hnet.check_addRule _ _ _ hblockList', Bool.or_assoc]

theorem parse_loopback
    : LOOPBACK_ADDRESSES.filterMap parseAllowlistEntry =
        [⟨"127.0.0.1", .ipv4, none⟩, ⟨"::1", .ipv6, none⟩] := by
  obtain ⟨hipv4, hipv6, haccepts4, haccepts6⟩ := hnet.loopback
  have hrule4 : parseAllowlistEntry "127.0.0.1" = some ⟨"127.0.0.1", .ipv4, none⟩ := by
    refine (parseAllowlistEntry_eq_some hnet).mpr ⟨?_, haccepts4⟩
    have hfamily : entryFamily "127.0.0.1" = some .ipv4 := by
      unfold entryFamily familyOf
      rw [hipv4]
      rfl
    have hsplit : split '/' "127.0.0.1" = ["127.0.0.1"] := by decide
    unfold parseRule
    rw [hsplit]
    dsimp only
    rw [hfamily]
    rfl
  have hrule6 : parseAllowlistEntry "::1" = some ⟨"::1", .ipv6, none⟩ := by
    refine (parseAllowlistEntry_eq_some hnet).mpr ⟨?_, haccepts6⟩
    have hfamily : entryFamily "::1" = some .ipv6 := by
      unfold entryFamily familyOf
      rw [hipv6]
      rfl
    have hsplit : split '/' "::1" = ["::1"] := by decide
    unfold parseRule
    rw [hsplit]
    dsimp only
    rw [hfamily]
    rfl
  simp only [LOOPBACK_ADDRESSES, List.filterMap_cons, List.filterMap_nil, hrule4, hrule6]

theorem buildAllowlist_eq (entries : List String)
    : ∃ allowlist,
        buildAllowlist entries = some allowlist
          ∧
        ∀ address family, Net.check allowlist address family =
          ((effectiveAllowlistEntries entries).filterMap parseAllowlistEntry).any
            fun rule => covers rule address family := by
  have hkept : (entries.filter fun entry => (parseAllowlistEntry entry).isSome).filterMap
      parseAllowlistEntry = entries.filterMap parseAllowlistEntry := by
    rw [List.filterMap_filter]
    congr
    funext entry
    cases parseAllowlistEntry entry <;> rfl
  have hempty : (entries.filter fun entry => (parseAllowlistEntry entry).isSome) = [] ↔
      entries.filterMap parseAllowlistEntry = [] := by
    simp [List.filter_eq_nil_iff, List.filterMap_eq_nil_iff]
  unfold buildAllowlist effectiveAllowlistEntries
  dsimp only
  by_cases hnone : entries.filterMap parseAllowlistEntry = []
  . rw [if_pos hnone, if_pos (hempty.mpr hnone), parse_loopback hnet]
    obtain ⟨_, _, haccepts4, haccepts6⟩ := hnet.loopback
    have hadded4 := hnet.addRule_isSome Net.new ⟨"127.0.0.1", .ipv4, none⟩
    rw [haccepts4] at hadded4
    obtain ⟨blockList4, hblockList4⟩ := Option.isSome_iff_exists.mp hadded4
    have hadded6 := hnet.addRule_isSome blockList4 ⟨"::1", .ipv6, none⟩
    rw [haccepts6] at hadded6
    obtain ⟨blockList6, hblockList6⟩ := Option.isSome_iff_exists.mp hadded6
    refine ⟨blockList6, ?_, fun address family => ?_⟩
    . rw [show Net.addAddress Net.new "127.0.0.1" .ipv4 = some blockList4 from hblockList4]
      exact hblockList6
    . rw [hnet.check_addRule _ _ _ hblockList6, hnet.check_addRule _ _ _ hblockList4, hnet.check_new]
      simp [Bool.or_comm]
  . rw [if_neg hnone, if_neg (fun h => hnone (hempty.mp h)), hkept]
    refine ⟨_, rfl, fun address family => ?_⟩
    have haccepted : ∀ rule ∈ entries.filterMap parseAllowlistEntry, accepts rule = true := by
      intro rule hrule
      obtain ⟨entry, _, hparsed⟩ := List.mem_filterMap.mp hrule
      exact ((parseAllowlistEntry_eq_some hnet).mp hparsed).2
    rw [check_foldl hnet haccepted, hnet.check_new, Bool.false_or]

omit hnet in
theorem isInAllowlist_iff {entries : List String} {allowlist : Net.BlockList}
    (hcheck : ∀ address family, Net.check allowlist address family =
      (entries.filterMap parseAllowlistEntry).any fun rule => covers rule address family) (ip : String)
    : isInAllowlist allowlist ip = true ↔ ∃ entry ∈ entries, EntryMatches covers entry ip := by
  unfold isInAllowlist EntryMatches clientAddress
  dsimp only
  cases familyOf (normalizeIp (trim ip)) with
  | none => simp
  | some family =>
    dsimp only
    rw [hcheck, List.any_eq_true]
    constructor
    . rintro ⟨rule, hrule, hcovers⟩
      obtain ⟨entry, hentry, hparsed⟩ := List.mem_filterMap.mp hrule
      exact ⟨entry, hentry, rule, _, family, hparsed, rfl, hcovers⟩
    . rintro ⟨entry, hentry, rule, address, family', hparsed, haddress, hcovers⟩
      simp only [Option.map_some, Option.some.injEq, Prod.mk.injEq] at haddress
      obtain ⟨rfl, rfl⟩ := haddress
      exact ⟨rule, List.mem_filterMap.mpr ⟨entry, hentry, hparsed⟩, hcovers⟩

omit hnet in
theorem effective_of_wellFormed {entries : List String}
    (hsome : ∃ entry ∈ entries, parseAllowlistEntry entry ≠ none)
    : effectiveAllowlistEntries entries =
        entries.filter fun entry => (parseAllowlistEntry entry).isSome := by
  obtain ⟨entry, hentry, hparsed⟩ := hsome
  refine if_neg fun hempty => ?_
  rw [List.filter_eq_nil_iff] at hempty
  exact hempty entry hentry (Option.isSome_iff_ne_none.mpr hparsed)

omit hnet in
theorem effective_of_malformed {entries : List String}
    (hnone : ∀ entry ∈ entries, parseAllowlistEntry entry = none)
    : effectiveAllowlistEntries entries = LOOPBACK_ADDRESSES := by
  refine if_pos ?_
  rw [List.filter_eq_nil_iff]
  intro entry hentry
  simp [hnone entry hentry]

omit hnet in
theorem effective_erase {before after : List String} {entry : String}
    (hmalformed : parseAllowlistEntry entry = none)
    : effectiveAllowlistEntries (before ++ entry :: after) = effectiveAllowlistEntries (before ++ after) := by
  have hfilter : ((before ++ entry :: after).filter fun entry => (parseAllowlistEntry entry).isSome) =
      (before ++ after).filter fun entry => (parseAllowlistEntry entry).isSome := by
    rw [List.filter_append, List.filter_append, List.filter_cons_of_neg (by simp [hmalformed])]
  unfold effectiveAllowlistEntries
  rw [hfilter]

omit hnet in
theorem EntryMatches.wellFormed {entry ip : String} (h : EntryMatches covers entry ip)
    : parseAllowlistEntry entry ≠ none := by
  obtain ⟨rule, _, _, hparsed, _⟩ := h
  simp [hparsed]

theorem allowlist_reported (entries : List String)
    : ∃ allowlist,
        buildAllowlist entries = some allowlist
          ∧
        ∀ ip, isInAllowlist allowlist ip = true ↔
          ∃ entry ∈ effectiveAllowlistEntries entries, EntryMatches covers entry ip := by
  obtain ⟨allowlist, hbuilt, hcheck⟩ := buildAllowlist_eq hnet entries
  exact ⟨allowlist, hbuilt, isInAllowlist_iff hcheck⟩

theorem allowedIps_enforced (cfg : AuthConfig)
    : ∃ allowlist,
        buildAllowlist (DefaultUserConfig.configuredIps cfg) = some allowlist
          ∧
        ∀ ip, isInAllowlist allowlist ip = true ↔
          ∃ entry ∈ DefaultUserConfig.allowedIps cfg, EntryMatches covers entry ip :=
  allowlist_reported hnet _

/--
For every list of entries there is an allowlist, and it is enforced as it is reported.
-/
theorem allowlist_enforced (entries : List String)
    : ∃ allowlist, buildAllowlist entries = some allowlist ∧ Enforced covers entries allowlist := by
  obtain ⟨allowlist, hbuilt, hallowed⟩ := allowlist_reported hnet entries
  refine ⟨allowlist, hbuilt, hallowed, ?_, ?_, ?_, ?_⟩
  . intro hsome ip
    rw [hallowed, effective_of_wellFormed hsome]
    constructor
    . rintro ⟨entry, hentry, hmatches⟩
      exact ⟨entry, List.mem_of_mem_filter hentry, hmatches⟩
    . rintro ⟨entry, hentry, hmatches⟩
      refine ⟨entry, List.mem_filter.mpr ⟨hentry, ?_⟩, hmatches⟩
      exact Option.isSome_iff_ne_none.mpr hmatches.wellFormed
  . intro hnone ip
    rw [hallowed, effective_of_malformed hnone]
  . rintro before entry after rfl hmalformed
    obtain ⟨allowlist', hbuilt', hallowed'⟩ := allowlist_reported hnet (before ++ after)
    refine ⟨fun ip hmatches => hmatches.wellFormed hmalformed, allowlist', hbuilt', fun ip => ?_⟩
    rw [Bool.eq_iff_iff, hallowed, hallowed', effective_erase hmalformed]
  . intro start address hstart haddress
    unfold isInAllowlist
    dsimp only
    rw [normalizeIp_mapped hnet hstart haddress, normalizeIp_dotted hnet haddress]

end Lists

end

section Runs

/--
A decimal number below 256 without leading zeros.
-/
def isOctet (text : String) : Bool :=
  numberOfDigits text < 256 && (text.toList.head? ≠ some '0' || text = "0")

/--
A network of addresses that are compared as texts. Only some texts are addresses: those of IPv4 that have
digits only, and the loopback address of IPv6.
-/
abbrev textNet : Net where
  isIP address :=
    if isDotted address && (split '.' address).all isOctet then 4
    else if address = "::1" then 6 else 0
  BlockList := List AllowlistRule
  new := []
  addAddress blockList address family := some (⟨address, family, none⟩ :: blockList)
  addSubnet _ _ _ _ := none
  check blockList address family := blockList.any fun rule => rule.address = address && rule.family = family

attribute [local instance] textNet

theorem allowlist_enforced_private
    : ∃ allowlist,
        buildAllowlist ["10.0.0.7", "office"] = some allowlist
          ∧
        Enforced (fun rule address family => rule.address = address && rule.family = family)
          ["10.0.0.7", "office"] allowlist := by
  have hnet : Net.Exact (fun rule => rule.prefixLength.isNone)
      (fun rule address family => rule.address = address && rule.family = family) := by
    constructor
    . intro blockList rule
      unfold addRule
      cases rule.prefixLength <;> rfl
    . exact fun _ _ => rfl
    . intro blockList rule blockList' hadded address family
      unfold addRule at hadded
      split at hadded
      . rw [← Option.some.inj hadded]
        exact Bool.or_comm _ _
      . simp [Net.addSubnet] at hadded
    . decide
    . intro address hfamily
      simp only [Net.isIP] at hfamily
      split at hfamily
      . next hparts =>
        rw [Bool.and_eq_true] at hparts
        exact hparts.1
      . split at hfamily
        . simp at hfamily
        . simp at hfamily
  exact allowlist_enforced hnet ["10.0.0.7", "office"]

end Runs

end Kerghan
