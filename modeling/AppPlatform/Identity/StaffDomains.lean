import AppPlatform.Identity.Domains
import AppPlatform.Lib.Labels

/-!
# Staff domains cannot be captured

The three matchers read the same host names: a staff address lies in a reserved domain, a domain that
overlaps a reserved one in either direction is no provider's, and the staff match is a match of labels.
-/

namespace Identity
open Js

/-- `[a-z0-9.-]` -/
def isHostUnit (u : CodeUnit) : Bool := isAlnum u || u = unit '-' || u = unit '.'

/-- What the matchers rely on of `String.prototype.toLowerCase`. -/
structure LowerCase (lower : Text → Text) : Prop where
  idempotent : ∀ t, lower (lower t) = lower t
  trim : ∀ t, trim (lower t) = lower (trim t)
  at_sign : ∀ s t, lower (s ++ unit '@' :: t) = lower s ++ unit '@' :: lower t
  no_at_sign : ∀ t, unit '@' ∉ t → unit '@' ∉ lower t
  host : ∀ t, (∀ u ∈ t, isHostUnit u = true) → lower t = t

/-! ### Host names -/

theorem isAlnum_range {u : CodeUnit} (alnum : isAlnum u = true) : (97 ≤ u.toNat ∧ u.toNat ≤ 122) ∨
    (48 ≤ u.toNat ∧ u.toNat ≤ 57) := by
  simp only [isAlnum, Bool.or_eq_true, isLower, Bool.and_eq_true, decide_eq_true_eq, UInt16.le_iff_toNat_le] at alnum
  rcases alnum with letter | digit
  · exact Or.inl letter
  · exact Or.inr (isDigit_range digit)

theorem isHostUnit_range {u : CodeUnit} (host : isHostUnit u = true) : 45 ≤ u.toNat ∧ u.toNat ≤ 122 ∧ u.toNat ≠ 64 := by
  simp only [isHostUnit, Bool.or_eq_true, decide_eq_true_eq] at host
  rcases host with (alnum | rfl) | rfl
  · have range := isAlnum_range alnum
    omega
  · decide
  · decide

theorem isLabel_units {t : Text} (label : isLabel t = true) : ∀ u ∈ t, isHostUnit u = true := by
  cases t with
  | nil => cases label
  | cons u rest =>
    rw [isLabel, Bool.and_eq_true] at label
    obtain ⟨first, others⟩ := label
    intro v member
    rcases List.mem_cons.mp member with rfl | later
    · rw [isHostUnit, first]
      rfl
    · have nonempty : rest ≠ [] := List.ne_nil_of_mem later
      rw [List.getLast?_eq_some_getLast nonempty] at others
      simp only [Bool.and_eq_true, List.all_eq_true] at others
      obtain ⟨⟨last, _⟩, middle⟩ := others
      rw [← List.dropLast_append_getLast nonempty] at later
      rcases List.mem_append.mp later with inside | final
      · have host := middle v inside
        rw [isHostUnit, host]
        rfl
      · rw [List.mem_singleton.mp final, isHostUnit, last]
        rfl

theorem isHostname_units {t : Text} (hostname : isHostname t = true) : ∀ u ∈ t, isHostUnit u = true := by
  intro u member
  rcases Labels.mem_labels (unit '.') member with rfl | ⟨label, found, inside⟩
  · decide
  · exact isLabel_units (List.all_eq_true.mp hostname label found) u inside

theorem isHostname_ne_nil {t : Text} (hostname : isHostname t = true) : t ≠ [] := by
  rintro rfl
  revert hostname
  decide

theorem trim_host {t : Text} (host : ∀ u ∈ t, isHostUnit u = true) : trim t = t := by
  apply trim_eq
  intro u member
  have range := isHostUnit_range (host u member)
  exact isWhiteSpace_letter (by omega) range.2.1

theorem host_suffix {s t : Text} (host : ∀ u ∈ t, isHostUnit u = true) (suffix : s <:+ t) : ∀ u ∈ s, isHostUnit u = true :=
  fun u member => host u (suffix.subset member)

theorem not_mem_host {t : Text} (host : ∀ u ∈ t, isHostUnit u = true) {u : CodeUnit} (other : isHostUnit u = false) : u ∉ t := by
  intro member
  rw [host u member] at other
  cases other

theorem endsWithHost_iff {d host : Text} : endsWithHost d host = true ↔ unit '.' :: host <:+ d := List.isSuffixOf_iff_suffix

/-- The host is the domain or above it. -/
def Within (d host : Text) : Prop := d = host ∨ unit '.' :: host <:+ d

theorem Within.suffix {d host : Text} (within : Within d host) : host <:+ d := by
  rcases within with rfl | below
  · exact List.suffix_rfl
  · exact (List.suffix_cons _ _).trans below

/-- Two domains that one address lies in overlap. -/
theorem Within.overlap {d h c : Text} (first : Within d h) (second : Within d c) : Within h c ∨ Within c h := by
  rcases first with rfl | below
  · exact Or.inl second
  rcases second with rfl | below'
  · exact Or.inr (Or.inr below)
  rcases List.suffix_or_suffix_of_suffix below below' with inside | inside
  · rcases List.suffix_cons_iff.mp inside with same | longer
    · exact Or.inr (Or.inl (List.cons.inj same).2.symm)
    · exact Or.inr (Or.inr longer)
  · rcases List.suffix_cons_iff.mp inside with same | longer
    · exact Or.inl (Or.inl (List.cons.inj same).2.symm)
    · exact Or.inl (Or.inr longer)

section
variable {lower : Text → Text} (lowers : LowerCase lower)
include lowers

theorem LowerCase.trimmed_host {t : Text} (host : ∀ u ∈ t, isHostUnit u = true) : lower (Js.trim t) = t := by
  rw [trim_host host, lowers.host t host]

theorem LowerCase.trimmed_twice (t : Text) : lower (Js.trim (lower (Js.trim t))) = lower (Js.trim t) := by
  rw [lowers.trim, trim_trim, lowers.idempotent]

omit lowers in
theorem mem_parseDomains_ne_nil {domains : DomainList} {d : Text} (member : d ∈ parseDomains lower domains) : d ≠ [] := by
  unfold parseDomains at member
  exact of_decide_eq_true (List.mem_filter.mp member).2

omit lowers in
theorem domainIn_iff {domain : Text} {domains : DomainList} :
    domainIn lower domain domains = true ↔
      lower (trim domain) ≠ [] ∧ ∃ allowed ∈ parseDomains lower domains, Within (lower (trim domain)) allowed := by
  unfold domainIn
  dsimp only
  by_cases empty : lower (trim domain) = []
  · rw [if_pos empty]
    simp [empty]
  · rw [if_neg empty, List.any_eq_true]
    simp only [Bool.or_eq_true, decide_eq_true_eq, endsWithHost_iff, Within]
    exact ⟨fun found => ⟨empty, found⟩, fun found => found.2⟩

theorem mem_parseDomains_list {hosts : List Text} (named : ∀ h ∈ hosts, isHostname h = true) {h : Text} (member : h ∈ hosts) :
    h ∈ parseDomains lower (.list hosts) := by
  unfold parseDomains
  refine List.mem_filter.mpr ⟨List.mem_map.mpr ⟨h, member, lowers.trimmed_host (isHostname_units (named h member))⟩, ?_⟩
  exact decide_eq_true (isHostname_ne_nil (named h member))

theorem parseDomains_text {c : Text} (host : ∀ u ∈ c, isHostUnit u = true) (nonempty : c ≠ []) :
    c ∈ parseDomains lower (.text c) := by
  unfold parseDomains
  dsimp only
  rw [List.splitOn_eq_singleton (not_mem_host host (by decide)), List.map_singleton, lowers.trimmed_host host]
  exact List.mem_filter.mpr ⟨List.mem_singleton_self c, decide_eq_true nonempty⟩

omit lowers in
theorem accepted_entries {ds : List (Option Text)} (accepted : staffDomainsProblem lower ds = none) :
    ∃ domains : List Text, ds = domains.map some ∧
      ∀ entry ∈ normalizeStaffDomains lower domains, isHostname (bareDomain entry) = true := by
  have sound : ∀ d ∈ ds, entryProblem lower d = none := List.findSome?_eq_none_iff.mp accepted
  refine ⟨ds.filterMap id, ?_, fun entry member => ?_⟩
  · clear accepted
    induction ds with
    | nil => rfl
    | cons d ds ih =>
      cases d with
      | none => cases sound none List.mem_cons_self
      | some t => exact congrArg (some t :: ·) (ih fun d member => sound d (List.mem_cons_of_mem _ member))
  · obtain ⟨read, _⟩ := List.mem_filter.mp member
    obtain ⟨raw, listed, rfl⟩ := List.mem_map.mp read
    obtain ⟨d, found, rfl⟩ := List.mem_filterMap.mp listed
    have fine : entryProblem lower (some raw) = none := sound _ found
    by_contra unnamed
    have bad : (!isHostname (bareDomain (lower (trim raw)))) = true := by
      rw [Bool.not_eq_true] at unnamed
      rw [unnamed]
      rfl
    exact absurd ((if_pos bad).symm.trans fine) (by simp)

omit lowers in
theorem wildcard_shape {entry : Text} (wildcard : WILDCARD.isPrefixOf entry = true) :
    ∃ host, entry = WILDCARD ++ host ∧ entry.drop 1 = unit '.' :: host ∧ bareDomain entry = host := by
  obtain ⟨host, rfl⟩ := List.isPrefixOf_iff_prefix.mp wildcard
  refine ⟨host, rfl, rfl, ?_⟩
  rw [bareDomain, if_pos wildcard]
  rfl

omit lowers in
theorem entryMatches_within {d entry : Text} (found : entryMatches d entry = true) : Within d (bareDomain entry) := by
  unfold entryMatches at found
  split at found
  · rename_i wildcard
    obtain ⟨host, _, dropped, bare⟩ := wildcard_shape wildcard
    rw [dropped] at found
    rw [bare]
    exact Or.inr (List.isSuffixOf_iff_suffix.mp found)
  · rename_i plain
    rw [bareDomain, if_neg plain]
    exact Or.inl (of_decide_eq_true found)

omit lowers in
theorem entryMatches_labels {d entry : Text} :
    entryMatches d entry = true ↔
      (¬ WILDCARD <+: entry ∧ d.splitOn (unit '.') = entry.splitOn (unit '.')) ∨
      ∃ host, entry = WILDCARD ++ host ∧ ∃ front, front ≠ [] ∧ d.splitOn (unit '.') = front ++ host.splitOn (unit '.') := by
  unfold entryMatches
  by_cases wildcard : WILDCARD.isPrefixOf entry = true
  · obtain ⟨host, rfl, dropped, _⟩ := wildcard_shape wildcard
    have starred : WILDCARD <+: WILDCARD ++ host := List.prefix_append _ _
    rw [if_pos wildcard, dropped, List.isSuffixOf_iff_suffix, Labels.suffix_iff]
    constructor
    · intro below
      exact Or.inr ⟨host, rfl, below⟩
    · rintro (⟨plain, _⟩ | ⟨host', same, below⟩)
      · exact absurd starred plain
      · rwa [List.append_cancel_left same]
  · have plain : ¬ WILDCARD <+: entry := fun starred => wildcard (List.isPrefixOf_iff_prefix.mpr starred)
    rw [if_neg wildcard, decide_eq_true_eq]
    constructor
    · rintro rfl
      exact Or.inl ⟨plain, rfl⟩
    · rintro (⟨_, same⟩ | ⟨host, rfl, _⟩)
      · exact Labels.splitOn_injective _ same
      · exact absurd (List.prefix_append _ _) plain

/-! ### Staff addresses -/

omit lowers in
theorem emailDomain_one {a p : Text} (plain : unit '@' ∉ a) (plain' : unit '@' ∉ p) :
    emailDomain lower (a ++ unit '@' :: p) = lower (trim p) := by
  rw [emailDomain, Labels.splitOn_pair.mpr ⟨rfl, plain, plain'⟩]

omit lowers in
/-- An address without a single `@` has no domain. -/
theorem emailDomain_other {email : Text} (nonempty : emailDomain lower email ≠ []) :
    ∃ a p, email = a ++ unit '@' :: p ∧ unit '@' ∉ a ∧ unit '@' ∉ p := by
  unfold emailDomain at nonempty
  split at nonempty
  · rename_i a p labels
    exact ⟨a, p, Labels.splitOn_pair.mp labels⟩
  · exact absurd rfl nonempty

theorem staffEmailIn_iff {email : Text} {entries : List Text} :
    staffEmailIn lower email entries = true ↔
      ∃ a p, email = a ++ unit '@' :: p ∧ unit '@' ∉ a ∧ unit '@' ∉ p ∧ isHostname (lower (trim p)) = true ∧
        ∃ entry ∈ entries, entryMatches (lower (trim p)) entry = true := by
  have matched : ∀ p, staffDomainIn lower (lower (trim p)) entries = true ↔
      isHostname (lower (trim p)) = true ∧ ∃ entry ∈ entries, entryMatches (lower (trim p)) entry = true := by
    intro p
    unfold staffDomainIn
    dsimp only
    rw [lowers.trimmed_twice]
    cases named : isHostname (lower (trim p)) with
    | false => simp
    | true => simp [List.any_eq_true]
  constructor
  · intro staff
    have nonempty : emailDomain lower email ≠ [] := by
      intro empty
      rw [staffEmailIn, empty, staffDomainIn, show trim ([] : Text) = [] from rfl,
        lowers.host [] (fun u member => by cases member)] at staff
      rw [if_pos (by decide)] at staff
      cases staff
    obtain ⟨a, p, rfl, plain, plain'⟩ := emailDomain_other nonempty
    rw [staffEmailIn, emailDomain_one plain plain'] at staff
    exact ⟨a, p, rfl, plain, plain', (matched p).mp staff⟩
  · rintro ⟨a, p, rfl, plain, plain', found⟩
    rw [staffEmailIn, emailDomain_one plain plain']
    exact (matched p).mpr found

theorem resolvedInside_iff {a p : Text} (plain : unit '@' ∉ a) (plain' : unit '@' ∉ p) (named : isHostname (lower (trim p)) = true)
    {domain : DomainList} :
    resolvedInside lower (a ++ unit '@' :: p) domain = true ↔ ∃ c ∈ parseDomains lower domain, Within (lower (trim p)) c := by
  have lowered : emailDomain lower (lower (a ++ unit '@' :: p)) = lower (trim p) := by
    rw [lowers.at_sign, emailDomain_one (lowers.no_at_sign a plain) (lowers.no_at_sign p plain'), lowers.trim, lowers.idempotent]
  rw [resolvedInside, lowered, domainIn_iff, lowers.trimmed_twice]
  exact ⟨fun inside => inside.2, fun inside => ⟨isHostname_ne_nil named, inside⟩⟩

theorem mem_reserved {hosts : List Text} (named : ∀ h ∈ hosts, isHostname h = true) {h : Text} (member : h ∈ hosts) {c : Text}
    (host : ∀ u ∈ c, isHostUnit u = true) (nonempty : c ≠ []) (within : Within c h) : domainIn lower c (.list hosts) = true := by
  rw [domainIn_iff, lowers.trimmed_host host]
  exact ⟨nonempty, h, mem_parseDomains_list lowers named member, within⟩

theorem reservedClaim_of_overlap {hosts : List Text} (named : ∀ h ∈ hosts, isHostname h = true) {h : Text} (member : h ∈ hosts)
    {domain c : Text} (claimed : c ∈ parseDomains lower (.text domain)) (host : ∀ u ∈ c, isHostUnit u = true)
    (overlap : Within h c ∨ Within c h) : reservedClaim lower hosts (some domain) = true := by
  have nonempty := mem_parseDomains_ne_nil claimed
  rw [reservedClaim, List.any_eq_true]
  refine ⟨c, claimed, ?_⟩
  rw [Bool.or_eq_true]
  rcases overlap with below | above
  · right
    rw [List.any_eq_true]
    refine ⟨h, member, ?_⟩
    rw [domainIn_iff, lowers.trimmed_host (isHostname_units (named h member))]
    exact ⟨isHostname_ne_nil (named h member), c, parseDomains_text lowers host nonempty, below⟩
  · exact Or.inl (mem_reserved lowers named member host nonempty above)

omit lowers in
theorem guard_claim {hosts : List Text} {body : Registration} (through : ssoRegistrationGuard lower hosts body = none) :
    reservedClaim lower hosts body.domain = false := by
  unfold ssoRegistrationGuard at through
  split at through
  · cases through
  split at through
  · cases through
  split at through
  · cases through
  · rename_i unclaimed
    exact Bool.not_eq_true _ ▸ unclaimed

/-- No staff address is inside the domain of a provider, staff addresses are reserved, and the match is a match of labels. -/
theorem staff_not_captured {ds : List (Option Text)} (accepted : staffDomainsProblem lower ds = none) :
    ∃ domains : List Text, ds = domains.map some ∧
      let staff := normalizeStaffDomains lower domains
      let reserved := staffReservedDomains staff
      (∀ email body domain, ssoRegistrationGuard lower reserved body = none → body.domain = some domain →
        ¬ (staffEmailIn lower email staff = true ∧ resolvedInside lower email (.text domain) = true)) ∧
      (∀ email withSso providers, staffEmailIn lower email staff = true →
        let isReserved := reservedDomainCheck lower reserved withSso providers
        isReserved email = true ∧ companyDomainSignUpGuard isReserved (some email) ≠ none ∧
          ∀ verified, getUserInfo isReserved (some ⟨some email, verified⟩) = none) ∧
      ∀ email, staffEmailIn lower email staff = true ↔
        ∃ a p, email = a ++ unit '@' :: p ∧ unit '@' ∉ a ∧ unit '@' ∉ p ∧ isHostname (lower (trim p)) = true ∧
          ∃ entry ∈ staff,
            (¬ WILDCARD <+: entry ∧ (lower (trim p)).splitOn (unit '.') = entry.splitOn (unit '.')) ∨
            ∃ host, entry = WILDCARD ++ host ∧
              ∃ front, front ≠ [] ∧ (lower (trim p)).splitOn (unit '.') = front ++ host.splitOn (unit '.') := by
  obtain ⟨domains, strings, entries⟩ := accepted_entries accepted
  refine ⟨domains, strings, ?_⟩
  intro staff reserved
  have named : ∀ h ∈ reserved, isHostname h = true := by
    intro h member
    obtain ⟨entry, listed, rfl⟩ := List.mem_map.mp member
    exact entries entry listed
  have within : ∀ {d}, (∃ entry ∈ staff, entryMatches d entry = true) → ∃ h ∈ reserved, Within d h := by
    rintro d ⟨entry, listed, found⟩
    exact ⟨bareDomain entry, List.mem_map_of_mem listed, entryMatches_within found⟩
  refine ⟨?_, ?_, ?_⟩
  · rintro email body domain through claims ⟨isStaff, inside⟩
    obtain ⟨a, p, rfl, plain, plain', host, found⟩ := (staffEmailIn_iff lowers).mp isStaff
    obtain ⟨h, member, first⟩ := within found
    obtain ⟨c, claimed, second⟩ := (resolvedInside_iff lowers plain plain' host).mp inside
    have unclaimed := guard_claim through
    rw [claims, reservedClaim_of_overlap lowers named member claimed (host_suffix (isHostname_units host) second.suffix)
      (first.overlap second)] at unclaimed
    cases unclaimed
  · intro email withSso providers isStaff isReserved
    obtain ⟨a, p, rfl, plain, plain', host, found⟩ := (staffEmailIn_iff lowers).mp isStaff
    obtain ⟨h, member, first⟩ := within found
    have reservedEmail : isReserved (a ++ unit '@' :: p) = true := by
      have inside : domainIn lower (lower (trim p)) (.list reserved) = true :=
        mem_reserved lowers named member (isHostname_units host) (isHostname_ne_nil host) first
      show reservedDomainCheck lower reserved withSso providers _ = true
      unfold reservedDomainCheck
      dsimp only
      rw [emailDomain_one plain plain', inside]
      split <;> rfl
    have nonempty : a ++ unit '@' :: p ≠ [] := List.append_ne_nil_of_right_ne_nil _ (List.cons_ne_nil _ _)
    refine ⟨reservedEmail, ?_, fun verified => ?_⟩
    · rw [companyDomainSignUpGuard, reservedEmail]
      nofun
    · simp only [getUserInfo]
      rw [if_neg nonempty, if_pos reservedEmail]
  · intro email
    rw [staffEmailIn_iff lowers]
    simp only [entryMatches_labels]

end

/-! ### Lower case of ASCII -/

theorem lowerUnit_other {u : CodeUnit} (upper : isUpper u = false) (kelvin : u ≠ 0x212A) : lowerUnit u = u := by
  rw [lowerUnit, upper, if_neg Bool.false_ne_true, if_neg kelvin]

theorem lowerUnit_host {u : CodeUnit} (host : isHostUnit u = true) : lowerUnit u = u := by
  simp only [isHostUnit, Bool.or_eq_true, decide_eq_true_eq] at host
  rcases host with (alnum | rfl) | rfl
  · have range := isAlnum_range alnum
    apply lowerUnit_other
    · rw [Bool.eq_false_iff]
      simp only [isUpper, ne_eq, Bool.and_eq_true, decide_eq_true_eq, UInt16.le_iff_toNat_le]
      show ¬ (65 ≤ u.toNat ∧ u.toNat ≤ 90)
      omega
    · rintro rfl
      exact absurd range (by decide)
  · rfl
  · rfl

theorem isUpper_range {u : CodeUnit} (upper : isUpper u = true) : 65 ≤ u.toNat ∧ u.toNat ≤ 90 ∧
    (u + 32).toNat = u.toNat + 32 := by
  simp only [isUpper, Bool.and_eq_true, decide_eq_true_eq, UInt16.le_iff_toNat_le] at upper
  have range : 65 ≤ u.toNat ∧ u.toNat ≤ 90 := upper
  refine ⟨range.1, range.2, ?_⟩
  rw [UInt16.toNat_add, show (32 : UInt16).toNat = 32 from rfl, Nat.mod_eq_of_lt (by omega)]

theorem isWhiteSpace_lowerUnit (u : CodeUnit) : isWhiteSpace (lowerUnit u) = isWhiteSpace u := by
  unfold lowerUnit
  split
  · rename_i upper
    obtain ⟨low, high, value⟩ := isUpper_range upper
    rw [isWhiteSpace_letter (by omega) (by omega), isWhiteSpace_letter (by omega) (by omega)]
  split
  · rename_i kelvin
    rw [kelvin]
    rfl
  · rfl

theorem lowerUnit_at_sign {u : CodeUnit} (same : lowerUnit u = unit '@') : u = unit '@' := by
  unfold lowerUnit at same
  split at same
  · rename_i upper
    obtain ⟨low, high, value⟩ := isUpper_range upper
    have number : (u + 32).toNat = 64 := congrArg UInt16.toNat same
    omega
  split at same
  · exact absurd same (by decide)
  · exact same

theorem toLowerCase_lowerCase : LowerCase toLowerCase where
  idempotent := toLowerCase_toLowerCase
  trim t := by
    have white : isWhiteSpace ∘ lowerUnit = isWhiteSpace := funext isWhiteSpace_lowerUnit
    rw [trim, trim, toLowerCase, toLowerCase, List.dropWhile_map, white, List.rdropWhile, List.rdropWhile, ← List.map_reverse,
      List.dropWhile_map, white, List.map_reverse]
  at_sign s t := by
    rw [toLowerCase, List.map_append, List.map_cons]
    rfl
  no_at_sign t plain member := by
    obtain ⟨u, found, same⟩ := List.mem_map.mp member
    exact plain (lowerUnit_at_sign same ▸ found)
  host t host := by
    rw [toLowerCase, List.map_congr_left fun u member => lowerUnit_host (host u member), List.map_id']

/-- Two entries, one a wildcard: a provider that claims the suffix above them is refused. -/
theorem staff_not_captured_wildcard : ∃ domains : List Text, [some (text " QNSC.vn"), some (text "*.qnsc.vn")] = domains.map some ∧
    staffEmailIn toLowerCase (text "a@HCM.qnsc.vn") (normalizeStaffDomains toLowerCase domains) = true ∧
    ∀ body, body.domain = some (text "uni.test, vn") →
      ssoRegistrationGuard toLowerCase (staffReservedDomains (normalizeStaffDomains toLowerCase domains)) body ≠ none := by
  have accepted : staffDomainsProblem toLowerCase [some (text " QNSC.vn"), some (text "*.qnsc.vn")] = none := by decide
  obtain ⟨domains, strings, safe, _, _⟩ := staff_not_captured toLowerCase_lowerCase accepted
  have listed : domains = [text " QNSC.vn", text "*.qnsc.vn"] :=
    List.map_injective_iff.mpr (Option.some_injective Text) strings.symm
  have staff : staffEmailIn toLowerCase (text "a@HCM.qnsc.vn") (normalizeStaffDomains toLowerCase domains) = true := by
    rw [listed]
    decide
  have inside : resolvedInside toLowerCase (text "a@HCM.qnsc.vn") (.text (text "uni.test, vn")) = true := by decide
  exact ⟨domains, strings, staff, fun body claims through => safe _ body _ through claims ⟨staff, inside⟩⟩

end Identity
