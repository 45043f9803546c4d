import AppPlatform.Lib.Text

/-!
# The trace across the queue

A `traceparent` is stored with the work and read where the work is relayed. What the middleware takes from a request has the same form.
-/

namespace TraceContext
open Js

/-! ### Groups of hex digits -/

/-- `/[0-9a-f]/` -/
def isLowerHex (u : CodeUnit) : Bool := isDigit u || (unit 'a' ≤ u && u ≤ unit 'f')

/-- Groups of hex digits of these lengths, with a hyphen between two. -/
def readGroups : List ℕ → Text → Option (List Text)
  | [], t => if t = [] then some [] else none
  | [n], t => if t.length = n ∧ t.all isLowerHex = true then some [t] else none
  | n :: m :: lengths, t =>
    if (t.take n).length = n ∧ (t.take n).all isLowerHex = true ∧ (t.drop n).head? = some (unit '-') then
      (readGroups (m :: lengths) (t.drop (n + 1))).map (t.take n :: ·)
    else none

def writeGroups (groups : List Text) : Text := [unit '-'].intercalate groups

theorem writeGroups_cons (group next : Text) (groups : List Text) :
    writeGroups (group :: next :: groups) = group ++ unit '-' :: writeGroups (next :: groups) := by
  rw [writeGroups, List.intercalate_cons_cons, List.append_assoc]
  rfl

theorem readGroups_eq {lengths : List ℕ} {t : Text} {groups : List Text} :
    readGroups lengths t = some groups ↔
      groups.map List.length = lengths ∧ (∀ g ∈ groups, g.all isLowerHex = true) ∧ t = writeGroups groups := by
  induction lengths generalizing t groups with
  | nil =>
    rw [readGroups, Option.ite_none_right_eq_some, List.map_eq_nil_iff]
    constructor
    · rintro ⟨rfl, same⟩
      obtain rfl := Option.some.inj same
      exact ⟨rfl, List.forall_mem_nil _, rfl⟩
    · rintro ⟨rfl, _, rfl⟩
      exact ⟨rfl, rfl⟩
  | cons n lengths ih =>
    cases lengths with
    | nil =>
      rw [readGroups, Option.ite_none_right_eq_some]
      constructor
      · rintro ⟨⟨length, hex⟩, same⟩
        obtain rfl := Option.some.inj same
        exact ⟨congrArg (fun k => [k]) length, List.forall_mem_singleton.mpr hex, (List.intercalate_singleton).symm⟩
      · rintro ⟨lengths, hex, rfl⟩
        obtain ⟨g, rfl, length⟩ := List.map_eq_singleton_iff.mp lengths
        rw [writeGroups, List.intercalate_singleton]
        exact ⟨⟨length, hex g List.mem_cons_self⟩, rfl⟩
    | cons m lengths =>
      rw [readGroups, Option.ite_none_right_eq_some, Option.map_eq_some_iff]
      constructor
      · rintro ⟨⟨length, hex, hyphen⟩, later, read, rfl⟩
        obtain ⟨lengthsLater, hexLater, rest⟩ := ih.mp read
        refine ⟨by rw [List.map_cons, length, lengthsLater], List.forall_mem_cons.mpr ⟨hex, hexLater⟩, ?_⟩
        obtain ⟨tail, same⟩ := List.head?_eq_some_iff.mp hyphen
        have after : t.drop (n + 1) = tail := by
          rw [← List.drop_drop, same]
          rfl
        cases later with
        | nil => cases lengthsLater
        | cons next later =>
          rw [writeGroups_cons, ← rest, after, ← same, List.take_append_drop]
      · rintro ⟨lengthsAll, hex, rfl⟩
        cases groups with
        | nil => cases lengthsAll
        | cons g later =>
          cases later with
          | nil => cases lengthsAll
          | cons next later =>
            rw [List.map_cons, List.cons.injEq] at lengthsAll
            obtain ⟨length, lengthsLater⟩ := lengthsAll
            have front : (writeGroups (g :: next :: later)).take n = g := by
              rw [writeGroups_cons, ← length, List.take_left']
              rfl
            have back : (writeGroups (g :: next :: later)).drop n = unit '-' :: writeGroups (next :: later) := by
              rw [writeGroups_cons, ← length, List.drop_left']
              rfl
            have hexLater := fun x found => hex x (List.mem_cons_of_mem g found)
            refine ⟨⟨by rw [front, length], ?_, by rw [back]; rfl⟩, next :: later, ?_, by rw [front]⟩
            · rw [front]
              exact hex g List.mem_cons_self
            refine ih.mpr ⟨lengthsLater, hexLater, ?_⟩
            rw [← List.drop_drop, back]
            rfl

/-- `/^[0-9a-f]{2}-[0-9a-f]{32}-[0-9a-f]{16}-[0-9a-f]{2}$/` -/
def traceparentGroups (t : Text) : Option (List Text) := readGroups [2, 32, 16, 2] t

/-- `W3C_TRACEPARENT.test` -/
def isTraceparent (t : Text) : Bool := (traceparentGroups t).isSome

def VERSION : Text := text "00"

def INVALID_TRACE_ID : Text := List.replicate 32 (unit '0')

def INVALID_SPAN_ID : Text := List.replicate 16 (unit '0')

/-- `traceFlags` as a number, of which only the lowest bit (`TraceFlags.SAMPLED`) counts. -/
structure SpanContext where
  traceId : Text
  spanId : Text
  traceFlags : ℕ
  isRemote : Bool
  deriving DecidableEq

def sampledText (traceFlags : ℕ) : Text := if traceFlags % 2 = 1 then text "01" else text "00"

/-- The header of the active span. -/
def currentTraceparent (span : Option SpanContext) : Option Text :=
  match span with
  | none => none
  | some spanContext =>
    if spanContext.traceId = INVALID_TRACE_ID ∨ spanContext.spanId = INVALID_SPAN_ID then none
    else some (writeGroups [VERSION, spanContext.traceId, spanContext.spanId, sampledText spanContext.traceFlags])

def hexValue (u : CodeUnit) : ℕ := if isDigit u then u.toNat - 48 else u.toNat - 87

/-- `Number.parseInt(flags, 16)` of hex digits. -/
def parseHex (t : Text) : ℕ := t.foldl (fun n u => 16 * n + hexValue u) 0

def parseTraceparent (traceparent : Text) : Option SpanContext :=
  match traceparentGroups (toLowerCase (trim traceparent)) with
  | some [version, traceId, spanId, flags] =>
    if version ≠ VERSION ∨ traceId = INVALID_TRACE_ID ∨ spanId = INVALID_SPAN_ID then none
    else some ⟨traceId, spanId, parseHex flags % 2, true⟩
  | _ => none

/-- The parent that `withRestoredTrace` runs under; nothing is restored of what is absent or malformed. -/
def restoredParent (traceparent : Option Text) : Option SpanContext := traceparent.bind parseTraceparent

/-- Ids that a tracer gives. -/
structure SpanContext.Valid (c : SpanContext) : Prop where
  traceLength : c.traceId.length = 32
  traceHex : c.traceId.all isLowerHex = true
  traceId : c.traceId ≠ INVALID_TRACE_ID
  spanLength : c.spanId.length = 16
  spanHex : c.spanId.all isLowerHex = true
  spanId : c.spanId ≠ INVALID_SPAN_ID

theorem traceparentGroups_eq {t version traceId spanId flags : Text} :
    traceparentGroups t = some [version, traceId, spanId, flags] ↔
      (version.length = 2 ∧ traceId.length = 32 ∧ spanId.length = 16 ∧ flags.length = 2) ∧
      (version.all isLowerHex = true ∧ traceId.all isLowerHex = true ∧ spanId.all isLowerHex = true ∧
        flags.all isLowerHex = true) ∧
      t = writeGroups [version, traceId, spanId, flags] := by
  rw [traceparentGroups, readGroups_eq]
  simp only [List.map_cons, List.map_nil, List.cons.injEq, and_true, List.forall_mem_cons, List.not_mem_nil, false_imp_iff, implies_true]

/-- What is read: a header of version 00 with ids that are not zero, up to letter case and white space around it. -/
theorem parseTraceparent_eq {t : Text} {c : SpanContext} : parseTraceparent t = some c ↔
    c.Valid ∧ c.isRemote = true ∧ ∃ flags, flags.length = 2 ∧ flags.all isLowerHex = true ∧
      c.traceFlags = parseHex flags % 2 ∧
      toLowerCase (trim t) = writeGroups [VERSION, c.traceId, c.spanId, flags] := by
  unfold parseTraceparent
  constructor
  · intro read
    split at read
    · rename_i version traceId spanId flags groups
      obtain ⟨⟨_, traceLength, spanLength, flagsLength⟩, ⟨_, traceHex, spanHex, flagsHex⟩, written⟩ :=
        traceparentGroups_eq.mp groups
      simp only [Option.ite_none_left_eq_some, not_or, not_not] at read
      obtain ⟨⟨rfl, traceSet, spanSet⟩, same⟩ := read
      obtain rfl := Option.some.inj same
      exact ⟨⟨traceLength, traceHex, traceSet, spanLength, spanHex, spanSet⟩, rfl, flags, flagsLength, flagsHex, rfl, written⟩
    · cases read
  · rintro ⟨valid, remote, flags, flagsLength, flagsHex, sampled, written⟩
    have groups := traceparentGroups_eq.mpr ⟨⟨rfl, valid.traceLength, valid.spanLength, flagsLength⟩,
      ⟨by decide, valid.traceHex, valid.spanHex, flagsHex⟩, written⟩
    rw [groups]
    dsimp only
    rw [if_neg (by simp [valid.traceId, valid.spanId]), ← sampled, ← remote]

/-! ### Round trips -/

theorem isLowerHex_plain {u : CodeUnit} (hex : isLowerHex u = true) : isWhiteSpace u = false ∧ lowerUnit u = u := by
  have range : (48 ≤ u.toNat ∧ u.toNat ≤ 57) ∨ (97 ≤ u.toNat ∧ u.toNat ≤ 102) := by
    rw [isLowerHex, Bool.or_eq_true, Bool.and_eq_true, decide_eq_true_eq, decide_eq_true_eq, UInt16.le_iff_toNat_le,
      UInt16.le_iff_toNat_le] at hex
    exact hex.imp isDigit_range id
  have upper : isUpper u = false := by
    rw [isUpper, Bool.and_eq_false_iff, decide_eq_false_iff_not, decide_eq_false_iff_not, UInt16.le_iff_toNat_le, UInt16.le_iff_toNat_le]
    change ¬ 65 ≤ u.toNat ∨ ¬ u.toNat ≤ 90
    omega
  have kelvin : u ≠ 0x212A := by
    rintro rfl
    exact absurd range (by decide)
  exact ⟨isWhiteSpace_letter (by omega) (by omega), by rw [lowerUnit, upper, if_neg Bool.false_ne_true, if_neg kelvin]⟩

theorem mem_writeGroups {groups : List Text} {u : CodeUnit} (found : u ∈ writeGroups groups) : u = unit '-' ∨
    ∃ g ∈ groups, u ∈ g := by
  induction groups with
  | nil => cases found
  | cons g later ih =>
    cases later with
    | nil =>
      rw [writeGroups, List.intercalate_singleton] at found
      exact .inr ⟨g, List.mem_cons_self, found⟩
    | cons next later =>
      rw [writeGroups_cons, List.mem_append, List.mem_cons] at found
      rcases found with here | hyphen | after
      · exact .inr ⟨g, List.mem_cons_self, here⟩
      · exact .inl hyphen
      · exact (ih after).imp_right fun ⟨h, member, inside⟩ => ⟨h, List.mem_cons_of_mem g member, inside⟩

theorem sampledText_hex (traceFlags : ℕ) : (sampledText traceFlags).length = 2 ∧ (sampledText traceFlags).all isLowerHex = true ∧
    parseHex (sampledText traceFlags) % 2 = traceFlags % 2 := by
  unfold sampledText
  split
  · rename_i odd
    exact ⟨rfl, by decide, by rw [odd]; decide⟩
  · rename_i even
    have zero : traceFlags % 2 = 0 := by omega
    exact ⟨rfl, by decide, by rw [zero]; decide⟩

def header (c : SpanContext) : Text := writeGroups [VERSION, c.traceId, c.spanId, sampledText c.traceFlags]

theorem currentTraceparent_valid {c : SpanContext} (valid : c.Valid) : currentTraceparent (some c) = some (header c) :=
  if_neg (not_or.mpr ⟨valid.traceId, valid.spanId⟩)

theorem header_plain {c : SpanContext} (valid : c.Valid) : toLowerCase (trim (header c)) = header c := by
  have plain : ∀ u ∈ header c, isWhiteSpace u = false ∧ lowerUnit u = u := by
    intro u found
    rcases mem_writeGroups found with rfl | ⟨g, member, inside⟩
    · decide
    · have hex : g.all isLowerHex = true := by
        simp only [List.mem_cons, List.not_mem_nil, or_false] at member
        rcases member with rfl | rfl | rfl | rfl
        · decide
        · exact valid.traceHex
        · exact valid.spanHex
        · exact (sampledText_hex _).2.1
      exact isLowerHex_plain (List.all_eq_true.mp hex u inside)
  rw [trim_eq fun u found => (plain u found).1, toLowerCase]
  exact (List.map_congr_left fun u found => (plain u found).2).trans (List.map_id' _)

theorem parse_header {c : SpanContext} (valid : c.Valid) :
    parseTraceparent (header c) = some ⟨c.traceId, c.spanId, c.traceFlags % 2, true⟩ := by
  obtain ⟨length, hex, parity⟩ := sampledText_hex c.traceFlags
  have ids : (SpanContext.mk c.traceId c.spanId (c.traceFlags % 2) true).Valid :=
    ⟨valid.traceLength, valid.traceHex, valid.traceId, valid.spanLength, valid.spanHex, valid.spanId⟩
  exact parseTraceparent_eq.mpr ⟨ids, rfl, sampledText c.traceFlags, length, hex, parity.symm, header_plain valid⟩

/-- What is stored of a valid span has the form of the header and is read back, and what is read can be stored and read again. -/
theorem traceparent_round_trip :
    (∀ c : SpanContext, c.Valid → ∃ t, currentTraceparent (some c) = some t ∧ isTraceparent t = true ∧
      parseTraceparent t = some ⟨c.traceId, c.spanId, c.traceFlags % 2, true⟩) ∧
    ∀ t c, parseTraceparent t = some c → c.Valid ∧ restoredParent (currentTraceparent (some c)) = some c := by
  constructor
  · intro c valid
    obtain ⟨length, hex, _⟩ := sampledText_hex c.traceFlags
    have groups : traceparentGroups (header c) = some [VERSION, c.traceId, c.spanId, sampledText c.traceFlags] :=
      traceparentGroups_eq.mpr ⟨⟨rfl, valid.traceLength, valid.spanLength, length⟩,
        ⟨by decide, valid.traceHex, valid.spanHex, hex⟩, rfl⟩
    exact ⟨header c, currentTraceparent_valid valid, by rw [isTraceparent, groups]; rfl, parse_header valid⟩
  · intro t c read
    obtain ⟨valid, remote, flags, _, _, sampled, _⟩ := parseTraceparent_eq.mp read
    have once : c.traceFlags % 2 = c.traceFlags := by
      rw [sampled, Nat.mod_mod]
    refine ⟨valid, ?_⟩
    rw [restoredParent, currentTraceparent_valid valid, Option.bind_some, parse_header valid, once, ← remote]

/-- A tracer that starts a child of a parent: in the same trace, and sampled as the parent is. -/
def Continues (child : SpanContext → SpanContext) : Prop := ∀ parent, parent.Valid →
  (child parent).Valid ∧ (child parent).traceId = parent.traceId ∧ (child parent).traceFlags % 2 = parent.traceFlags % 2

/-- The work is stored under one span and relayed under a child of what was stored. -/
def relay (span : SpanContext) (child : SpanContext → SpanContext) : Option SpanContext :=
  (restoredParent (currentTraceparent (some span))).map child

/-- However often work is stored and relayed, the last span is in the trace of the first, and sampled as it is. -/
theorem relays_followed {children : List (SpanContext → SpanContext)} (each : ∀ child ∈ children, Continues child)
    {span : SpanContext} (valid : span.Valid) : ∃ last, children.foldlM relay span = some last ∧ last.Valid ∧
      last.traceId = span.traceId ∧ last.traceFlags % 2 = span.traceFlags % 2 := by
  induction children generalizing span with
  | nil => exact ⟨span, rfl, valid, rfl, rfl⟩
  | cons child children ih =>
    have parent : (SpanContext.mk span.traceId span.spanId (span.traceFlags % 2) true).Valid :=
      ⟨valid.traceLength, valid.traceHex, valid.traceId, valid.spanLength, valid.spanHex, valid.spanId⟩
    obtain ⟨next, trace, sampled⟩ := each child List.mem_cons_self _ parent
    obtain ⟨last, ran, lastValid, lastTrace, lastSampled⟩ :=
      ih (fun other found => each other (List.mem_cons_of_mem child found)) next
    have relayed : relay span child = some (child ⟨span.traceId, span.spanId, span.traceFlags % 2, true⟩) := by
      rw [relay, restoredParent, currentTraceparent_valid valid, Option.bind_some, parse_header valid, Option.map_some]
    refine ⟨last, ?_, lastValid, lastTrace.trans trace, ?_⟩
    · rw [List.foldlM_cons, relayed]
      exact ran
    · rw [lastSampled, sampled, Nat.mod_mod]

def requestSpan : SpanContext := ⟨List.replicate 32 (unit 'a'), List.replicate 16 (unit '1'), 1, false⟩

theorem relays_followed_twice : ∃ last, [fun parent : SpanContext => { parent with spanId := List.replicate 16 (unit '2') },
      fun parent => { parent with spanId := List.replicate 16 (unit '3') }].foldlM relay requestSpan = some last ∧ last.Valid ∧
      last.traceId = requestSpan.traceId ∧ last.traceFlags % 2 = requestSpan.traceFlags % 2 := by
  have valid : requestSpan.Valid := ⟨by decide, by decide, by decide, by decide, by decide, by decide⟩
  have continues : ∀ id : Text, id.length = 16 → id.all isLowerHex = true → id ≠ INVALID_SPAN_ID →
      Continues fun parent => { parent with spanId := id } :=
    fun id length hex set parent ok => ⟨⟨ok.traceLength, ok.traceHex, ok.traceId, length, hex, set⟩, rfl, rfl⟩
  refine relays_followed (fun child found => ?_) valid
  simp only [List.mem_cons, List.not_mem_nil, or_false] at found
  rcases found with rfl | rfl
  · exact continues _ (by decide) (by decide) (by decide)
  · exact continues _ (by decide) (by decide) (by decide)

end TraceContext
