import AppPlatform.Http.EdgeSignature
import AppPlatform.Lib.JsonUtf8
import AppPlatform.Lib.Value

/-!
# Cursor pagination

A page ends with a cursor: the sort key, the id and the direction of its last item, as base64url of JSON. The
decoder wants the id to be a UUID and the encoder does not.
-/

namespace Pagination
open Js
open Edge (base64url fromBase64url_base64url)

def DEFAULT_LIMIT : ℕ := 50

def MAX_LIMIT : ℕ := 100

inductive Direction where
  | asc
  | desc
  deriving DecidableEq

def Direction.word : Direction → Text
  | .asc => text "asc"
  | .desc => text "desc"

/-- `z.enum(['asc', 'desc'])`. -/
def Direction.ofWord (t : Text) : Option Direction :=
  if t = text "asc" then some .asc else if t = text "desc" then some .desc else none

/-- The payload without `v`, which is always 1. -/
structure CursorPayload where
  k : List Json
  id : Text
  d : Direction

def CursorPayload.json (payload : CursorPayload) : Json :=
  .obj [(text "v", .num (Number.ofNat 1)), (text "k", .arr payload.k), (text "id", .str payload.id),
    (text "d", .str payload.d.word)]

structure DomainException where
  code : Text
  message : Text
  httpStatus : ℕ

def preconditionFailedException (code message : Text) : DomainException := ⟨code, message, 412⟩

def encodeCursor (payload : CursorPayload) : Text := base64url (utf8 (stringify payload.json))

structure PageQuery where
  limit : Option ℕ
  cursor : Option Text
  accepted : ∀ n ∈ limit, 1 ≤ n ∧ n ≤ MAX_LIMIT

structure PageArgs where
  limit : ℕ
  cursor : Option CursorPayload

structure PageInfo where
  nextCursor : Option Text
  hasNextPage : Bool
  limit : ℕ

structure PagedResult (T : Type*) where
  data : List T
  pageInfo : PageInfo

section
variable {T : Type*} (id : T → Text)

/-- `rawItems` were fetched with `limit + 1`. -/
def buildPageResult (rawItems : List T) (limit : ℕ) (buildCursorKey : T → List Json) (direction : Direction) : PagedResult T :=
  let hasNextPage : Bool := limit < rawItems.length
  let data := if hasNextPage then rawItems.take limit else rawItems
  let nextCursor := if hasNextPage then
      data.getLast?.map fun last => encodeCursor ⟨buildCursorKey last, id last, direction⟩
    else none
  ⟨data, nextCursor, hasNextPage, limit⟩

end

def invalidCursor : DomainException :=
  preconditionFailedException (text "INVALID_CURSOR") (text "Invalid or tampered cursor")

section
variable (isUuid : Text → Bool)

/-- `CursorPayloadSchema.parse`; `isUuid` is what `z.string().uuid()` accepts. -/
def parsePayload (raw : Json) : Option CursorPayload :=
  match raw.field? (text "v"), raw.field? (text "k"), raw.field? (text "id"), raw.field? (text "d") with
  | some (.num v), some (.arr k), some (.str id), some (.str d) =>
    if v.isFinite 1 && isUuid id then (Direction.ofWord d).map fun d => ⟨k, id, d⟩ else none
  | _, _, _, _ => none

def decodeCursor (cursor : Text) : Except DomainException CursorPayload :=
  match (parse (decodeUtf8 (fromBase64url cursor))).bind (parsePayload isUuid) with
  | some payload => .ok payload
  | none => .error invalidCursor

def buildPageArgs (query : PageQuery) : Except DomainException PageArgs :=
  let limit := query.limit.getD DEFAULT_LIMIT
  match query.cursor with
  | none => .ok ⟨limit, none⟩
  | some cursor =>
    if cursor = [] then .ok ⟨limit, none⟩ else (decodeCursor isUuid cursor).map fun payload => ⟨limit, some payload⟩

end

structure SortKey where
  items : List Json
  canonical : CanonicalItems items
  finite : FiniteItems items

section
variable {isUuid : Text → Bool}

theorem ofWord_word (d : Direction) : Direction.ofWord d.word = some d := by
  cases d <;> rfl

theorem normalForm_payload (key : SortKey) (id : Text) (d : Direction) :
    normalForm (CursorPayload.json ⟨key.items, id, d⟩) = CursorPayload.json ⟨key.items, id, d⟩ := by
  have one : normalForm (.num (Number.ofNat 1)) = .num (Number.ofNat 1) := by rw [Number.ofNat_eq (by norm_num), normalForm]
  have ordered : Ordered [(text "v", Json.num (Number.ofNat 1)), (text "k", .arr key.items), (text "id", .str id),
      (text "d", .str d.word)] :=
    ordered_names [text "v", text "k", text "id", text "d"] rfl (by decide) (by decide)
  rw [CursorPayload.json, normalForm, normalFields, normalFields, normalFields, normalFields, normalFields, one, normalForm,
    normalForm, normalForm, normalItems_eq key.items key.canonical key.finite, buildFields_eq ordered]

theorem parsePayload_json (k : List Json) (id : Text) (d : Direction) :
    parsePayload isUuid (CursorPayload.json ⟨k, id, d⟩) = if isUuid id then some ⟨k, id, d⟩ else none := by
  have one : (Number.ofNat 1).isFinite 1 = true := by
    rw [Number.ofNat_eq (by norm_num)]
    simp [Number.isFinite]
  have v : (CursorPayload.json ⟨k, id, d⟩).field? (text "v") = some (.num (Number.ofNat 1)) := rfl
  have k' : (CursorPayload.json ⟨k, id, d⟩).field? (text "k") = some (.arr k) := rfl
  have id' : (CursorPayload.json ⟨k, id, d⟩).field? (text "id") = some (.str id) := rfl
  have d' : (CursorPayload.json ⟨k, id, d⟩).field? (text "d") = some (.str d.word) := rfl
  rw [parsePayload, v, k', id', d']
  simp only [one, Bool.true_and, ofWord_word, Option.map_some]

theorem decodeCursor_encodeCursor (key : SortKey) (id : Text) (d : Direction) :
    decodeCursor isUuid (encodeCursor ⟨key.items, id, d⟩) =
      if isUuid id then .ok ⟨key.items, id, d⟩ else .error invalidCursor := by
  rw [decodeCursor, encodeCursor, fromBase64url_base64url, decodeUtf8_stringify, parse_stringify, normalForm_payload,
    Option.bind_some, parsePayload_json]
  cases isUuid id <;> rfl

theorem encodeCursor_ne_nil (payload : CursorPayload) : encodeCursor payload ≠ [] := by
  intro empty
  obtain ⟨u, t, head, -⟩ := stringify_head payload.json
  have read := fromBase64url_base64url (utf8 (stringify payload.json))
  rw [encodeCursor] at empty
  have text := decodeUtf8_stringify payload.json
  rw [← read, empty, head] at text
  cases text

def PageQuery.size (query : PageQuery) : ℕ := query.limit.getD DEFAULT_LIMIT

theorem PageQuery.size_positive (query : PageQuery) : 1 ≤ query.size := by
  rw [PageQuery.size]
  cases given : query.limit with
  | none => decide
  | some n => exact (query.accepted n given).1

def PageQuery.at (query : PageQuery) (cursor : Option Text) : PageQuery := { query with cursor }

theorem buildPageArgs_encodeCursor (query : PageQuery) (key : SortKey) (id : Text) (d : Direction) :
    buildPageArgs isUuid (query.at (some (encodeCursor ⟨key.items, id, d⟩))) =
      if isUuid id then .ok ⟨query.size, some ⟨key.items, id, d⟩⟩ else .error invalidCursor := by
  rw [buildPageArgs, PageQuery.at]
  simp only [if_neg (encodeCursor_ne_nil _), decodeCursor_encodeCursor]
  cases isUuid id <;> rfl

end

section
variable {T : Type*} {id : T → Text} {buildCursorKey : T → List Json} {d : Direction}

theorem buildPageResult_last {rawItems : List T} {limit : ℕ} (short : rawItems.length ≤ limit) :
    buildPageResult id rawItems limit buildCursorKey d = ⟨rawItems, none, false, limit⟩ := by
  have none_left : decide (limit < rawItems.length) = false := decide_eq_false (by omega)
  simp only [buildPageResult, none_left, Bool.false_eq_true, if_false]

/-- The extra row is cut and the cursor is taken at the item before it. -/
theorem buildPageResult_next {front extra : List T} {last : T} {limit : ℕ} (full : front.length + 1 = limit) (more : extra ≠ []) :
    buildPageResult id (front ++ last :: extra) limit buildCursorKey d =
      ⟨front ++ [last], some (encodeCursor ⟨buildCursorKey last, id last, d⟩), true, limit⟩ := by
  have some_left : decide (limit < (front ++ last :: extra).length) = true := by
    have := List.length_pos_iff.mpr more
    rw [decide_eq_true_eq, List.length_append, List.length_cons]
    omega
  have cut : (front ++ last :: extra).take limit = front ++ [last] := by
    rw [List.append_cons, List.take_left' (by rw [List.length_append, List.length_singleton, full])]
  simp only [buildPageResult, some_left, if_true, cut, List.getLast?_concat, Option.map_some]

theorem exists_split {limit : ℕ} (positive : 1 ≤ limit) {rest : List T} (long : limit < rest.length) :
    ∃ front last extra, rest = front ++ last :: extra ∧ front.length + 1 = limit ∧ extra ≠ [] := by
  refine ⟨rest.take (limit - 1), rest[limit - 1], rest.drop limit, ?_, ?_, ?_⟩
  · have shape := List.take_append_drop (limit - 1) rest
    rw [List.drop_eq_getElem_cons (by omega), Nat.sub_add_cancel positive] at shape
    exact shape.symm
  · rw [List.length_take]
    omega
  · intro empty
    have := List.drop_eq_nil_iff.mp empty
    omega

end

/-! ### Page after page -/

/-- A repository that lists `items`: for a cursor it fetches the rows after the item that the cursor names. -/
structure Listing (T : Type*) (id : T → Text) where
  items : List T
  key : T → SortKey
  direction : Direction
  fetch : Option CursorPayload → ℕ → List T
  first : ∀ n, fetch none n = items.take n
  after : ∀ before item rest, items = before ++ item :: rest →
    ∀ n, fetch (some ⟨(key item).items, id item, direction⟩) n = rest.take n

section
variable {T : Type*} {id : T → Text}

/-- Rows with distinct ids, found again by id. -/
def Listing.ofDistinct (items : List T) (key : T → SortKey) (direction : Direction) (distinct : (items.map id).Nodup) :
    Listing T id where
  items := items
  key := key
  direction := direction
  fetch cursor n := ((cursor.elim items fun c => (items.dropWhile fun item => id item ≠ c.id).tail)).take n
  first _ := rfl
  after before item rest split n := by
    have other : ∀ a ∈ before, decide (id a ≠ id item) = true := by
      intro a member
      rw [split, List.map_append, List.map_cons] at distinct
      rw [decide_eq_true_eq]
      exact (List.nodup_append.mp distinct).2.2 _ (List.mem_map_of_mem member) _ List.mem_cons_self
    rw [Option.elim_some, split, List.dropWhile_append_of_pos other, List.dropWhile_cons_of_neg (by simp), List.tail_cons]

/-- The handler of a page: `limit + 1` rows after the cursor, cut to a page. -/
def Listing.page (listing : Listing T id) (args : PageArgs) : PagedResult T :=
  buildPageResult id (listing.fetch args.cursor (args.limit + 1)) args.limit (fun item => (listing.key item).items) listing.direction

/-- The pages that a client reads, asking with the cursor of each for the next. `none`: a cursor was refused, or the fuel
is out. -/
def Listing.walk (listing : Listing T id) (isUuid : Text → Bool) (query : PageQuery) : ℕ → Option Text → Option (List (List T))
  | 0, _ => none
  | fuel + 1, cursor => (buildPageArgs isUuid (query.at cursor)).toOption.bind fun args =>
    let page := listing.page args
    if page.pageInfo.hasNextPage then (listing.walk isUuid query fuel page.pageInfo.nextCursor).map (page.data :: ·)
    else some [page.data]

/-- Every page but the last ends with an item whose id is a UUID. -/
def EndsInUuids (id : T → Text) (isUuid : Text → Bool) (limit : ℕ) (items : List T) : Prop :=
  ∀ before item rest, items = before ++ item :: rest → rest ≠ [] → limit ∣ before.length + 1 → isUuid (id item) = true

variable {isUuid : Text → Bool} {limit : ℕ}

theorem endsInUuids_short {rest : List T} (short : rest.length ≤ limit) : EndsInUuids id isUuid limit rest := by
  intro before item later split more full
  have lengths := congrArg List.length split
  have := List.length_pos_iff.mpr more
  have := Nat.le_of_dvd (by omega) full
  rw [List.length_append, List.length_cons] at lengths
  omega

theorem endsInUuids_next {front extra : List T} {last : T} (full : front.length + 1 = limit) (more : extra ≠ []) :
    EndsInUuids id isUuid limit (front ++ last :: extra) ↔ isUuid (id last) = true ∧ EndsInUuids id isUuid limit extra := by
  constructor
  · intro ends
    refine ⟨ends front last extra rfl more ⟨1, by omega⟩, ?_⟩
    rintro before item rest rfl more' whole
    refine ends (front ++ last :: before) item rest (by simp) more' ?_
    have length : (front ++ last :: before).length + 1 = limit + (before.length + 1) := by
      rw [List.length_append, List.length_cons]
      omega
    rw [length]
    exact (Nat.dvd_add_right dvd_rfl).mpr whole
  · rintro ⟨uuid, later⟩ before item rest split more' whole
    have atLeast := Nat.le_of_dvd (by omega) whole
    rw [List.append_cons, List.append_cons before] at split
    rcases List.append_eq_append_iff.mp split with ⟨back, upTo, beyond⟩ | ⟨back, page, _⟩
    · rcases List.eq_nil_or_concat back with rfl | ⟨between, item', rfl⟩
      · rw [List.append_nil] at upTo
        rw [(List.append_singleton_inj.mp upTo).2]
        exact uuid
      · rw [List.concat_eq_append, ← List.append_assoc] at upTo
        obtain ⟨rfl, rfl⟩ := List.append_singleton_inj.mp upTo
        refine later between item rest (by rw [beyond, List.concat_eq_append, List.append_assoc, List.singleton_append]) more' ?_
        have length : (front ++ [last] ++ between).length + 1 = limit + (between.length + 1) := by
          rw [List.length_append, List.length_append, List.length_singleton]
          omega
        rw [length] at whole
        exact (Nat.dvd_add_right dvd_rfl).mp whole
    · -- the first page has no room for another full one
      have lengths := congrArg List.length page
      rw [List.length_append, List.length_append, List.length_append, List.length_singleton, List.length_singleton] at lengths
      have none_back : back = [] := List.length_eq_zero_iff.mp (by omega)
      rw [none_back, List.append_nil] at page
      rw [← (List.append_singleton_inj.mp page).2]
      exact uuid

/-- A query with this cursor is answered from `rest`. -/
def Listing.Reads (listing : Listing T id) (isUuid : Text → Bool) (query : PageQuery) (cursor : Option Text) (rest : List T) : Prop :=
  ∃ args, buildPageArgs isUuid (query.at cursor) = .ok args ∧ args.limit = query.size ∧
    ∀ n, listing.fetch args.cursor n = rest.take n

variable {listing : Listing T id} {query : PageQuery} {cursor : Option Text}

theorem reads_first : listing.Reads isUuid query none listing.items := ⟨⟨query.size, none⟩, rfl, rfl, listing.first⟩

theorem walk_last {rest : List T} (reads : listing.Reads isUuid query cursor rest) (short : rest.length ≤ query.size) (fuel : ℕ) :
    listing.walk isUuid query (fuel + 1) cursor = some [rest] := by
  obtain ⟨args, asked, size, fetched⟩ := reads
  have whole : listing.page args = ⟨rest, none, false, query.size⟩ := by
    rw [Listing.page, fetched, size, List.take_of_length_le (by omega), buildPageResult_last short]
  rw [Listing.walk, asked]
  simp only [Except.toOption, Option.bind_some, whole, Bool.false_eq_true, if_false]

theorem walk_next {front extra : List T} {last : T} (reads : listing.Reads isUuid query cursor (front ++ last :: extra))
    (full : front.length + 1 = query.size) (more : extra ≠ []) (fuel : ℕ) :
    listing.walk isUuid query (fuel + 1) cursor =
      (listing.walk isUuid query fuel (some (encodeCursor ⟨(listing.key last).items, id last, listing.direction⟩))).map
        ((front ++ [last]) :: ·) := by
  obtain ⟨args, asked, size, fetched⟩ := reads
  obtain ⟨next, later, rfl⟩ := List.exists_cons_of_ne_nil more
  have rows : (front ++ last :: next :: later).take (query.size + 1) = front ++ last :: [next] := by
    have length : (front ++ [last] ++ [next]).length = query.size + 1 := by
      rw [List.length_append, List.length_append, List.length_singleton, List.length_singleton, full]
    rw [List.append_cons, List.append_cons _ next, List.take_left' length, List.append_assoc]
    rfl
  have page : listing.page args =
      ⟨front ++ [last], some (encodeCursor ⟨(listing.key last).items, id last, listing.direction⟩), true, query.size⟩ := by
    rw [Listing.page, fetched, size, rows, buildPageResult_next full (List.cons_ne_nil next [])]
  rw [Listing.walk, asked]
  simp only [Except.toOption, Option.bind_some, page, if_true]

/-- The next cursor is refused, or is answered from the rows after the page. -/
theorem reads_next {before front extra : List T} {last : T} (split : listing.items = before ++ (front ++ last :: extra))
    (uuid : isUuid (id last) = true) :
    listing.Reads isUuid query (some (encodeCursor ⟨(listing.key last).items, id last, listing.direction⟩)) extra := by
  refine ⟨⟨query.size, some ⟨(listing.key last).items, id last, listing.direction⟩⟩, ?_, rfl, ?_⟩
  · rw [buildPageArgs_encodeCursor, if_pos uuid]
  · exact listing.after (before ++ front) last extra (by rw [split, List.append_assoc])

theorem walk_refused {key : SortKey} {t : Text} {d : Direction} (refused : isUuid t ≠ true) (fuel : ℕ) :
    listing.walk isUuid query fuel (some (encodeCursor ⟨key.items, t, d⟩)) = none := by
  cases fuel with
  | zero => rfl
  | succ fuel =>
    rw [Listing.walk, buildPageArgs_encodeCursor, if_neg refused]
    rfl

theorem walk_of_uuids (fuel : ℕ) {before rest : List T} (split : listing.items = before ++ rest)
    (reads : listing.Reads isUuid query cursor rest) (uuids : EndsInUuids id isUuid query.size rest) (enough : rest.length < fuel) :
    ∃ pages, listing.walk isUuid query fuel cursor = some pages ∧ pages.flatten = rest ∧
      ∀ page ∈ pages, page.length ≤ query.size := by
  induction fuel generalizing before rest cursor with
  | zero => omega
  | succ fuel ih =>
    by_cases short : rest.length ≤ query.size
    · refine ⟨[rest], walk_last reads short fuel, List.flatten_singleton, ?_⟩
      exact List.forall_mem_singleton.mpr short
    · obtain ⟨front, last, extra, rfl, full, more⟩ := exists_split query.size_positive (Nat.lt_of_not_le short)
      obtain ⟨uuid, later⟩ := (endsInUuids_next full more).mp uuids
      rw [List.length_append, List.length_cons] at enough
      have here : listing.items = before ++ (front ++ [last]) ++ extra := by simp [split]
      obtain ⟨pages, walked, flat, bounded⟩ := ih here (reads_next split uuid) later (by omega)
      refine ⟨(front ++ [last]) :: pages, ?_, ?_, ?_⟩
      · rw [walk_next reads full more, walked]
        rfl
      · rw [List.flatten_cons, flat, ← List.append_cons]
      · refine List.forall_mem_cons.mpr ⟨?_, bounded⟩
        rw [List.length_append, List.length_singleton, full]

theorem uuids_of_walk (fuel : ℕ) {before rest : List T} {pages : List (List T)} (split : listing.items = before ++ rest)
    (reads : listing.Reads isUuid query cursor rest) (walked : listing.walk isUuid query fuel cursor = some pages) :
    EndsInUuids id isUuid query.size rest := by
  induction fuel generalizing before rest cursor pages with
  | zero => cases walked
  | succ fuel ih =>
    by_cases short : rest.length ≤ query.size
    · exact endsInUuids_short short
    · obtain ⟨front, last, extra, rfl, full, more⟩ := exists_split query.size_positive (Nat.lt_of_not_le short)
      rw [walk_next reads full more] at walked
      obtain ⟨later, walked, -⟩ := Option.map_eq_some_iff.mp walked
      have uuid : isUuid (id last) = true := by
        by_contra refused
        rw [walk_refused refused] at walked
        cases walked
      have here : listing.items = before ++ (front ++ [last]) ++ extra := by simp [split]
      exact (endsInUuids_next full more).mpr ⟨uuid, ih here (reads_next split uuid) walked⟩

/-- A cursor is accepted and decodes to the item it was issued for, and the pages make up the list, exactly when the item
at the end of each page with a next one has a UUID. -/
theorem cursor_round_trip_iff (isUuid : Text → Bool) (query : PageQuery) (listing : Listing T id) :
    (∀ (rawItems : List T) (token : Text),
      (buildPageResult id rawItems query.size (fun item => (listing.key item).items)
        listing.direction).pageInfo.nextCursor = some token →
        ∃ last, rawItems[query.size - 1]? = some last ∧
          (buildPageArgs isUuid (query.at (some token)) =
            .ok ⟨query.size, some ⟨(listing.key last).items, id last, listing.direction⟩⟩ ↔ isUuid (id last) = true)) ∧
    ((∃ fuel pages, listing.walk isUuid query fuel none = some pages ∧ pages.flatten = listing.items ∧
        ∀ page ∈ pages, page.length ≤ query.size) ↔ EndsInUuids id isUuid query.size listing.items) := by
  refine ⟨fun rawItems token issued => ?_, ?_, ?_⟩
  · by_cases short : rawItems.length ≤ query.size
    · rw [buildPageResult_last short] at issued
      cases issued
    · obtain ⟨front, last, extra, rfl, full, more⟩ := exists_split query.size_positive (Nat.lt_of_not_le short)
      rw [buildPageResult_next full more] at issued
      obtain rfl := Option.some.inj issued
      refine ⟨last, ?_, ?_⟩
      · rw [← full, Nat.add_sub_cancel, List.getElem?_append_right le_rfl, Nat.sub_self]
        rfl
      · rw [buildPageArgs_encodeCursor]
        by_cases uuid : isUuid (id last) = true
        · exact iff_of_true (if_pos uuid) uuid
        · rw [if_neg uuid]
          exact iff_of_false (fun ok => by cases ok) uuid
  · rintro ⟨fuel, pages, walked, -, -⟩
    exact uuids_of_walk fuel listing.items.nil_append.symm reads_first walked
  · intro uuids
    exact ⟨listing.items.length + 1, walk_of_uuids _ listing.items.nil_append.symm reads_first uuids (by omega)⟩

end

/-- Rows that are their own ids, three of them in pages of two. -/
def rows (items : List Text) (distinct : (items.map fun t => t).Nodup) : Listing Text fun t => t :=
  .ofDistinct items (fun _ => ⟨[], trivial, trivial⟩) .asc distinct

def twoRows : PageQuery := ⟨some 2, none, by decide⟩

theorem cursor_round_trip_three :
    ∃ fuel pages, (rows [text "123e4567-e89b-12d3-a456-426614174000", text "123e4567-e89b-12d3-a456-426614174001",
        text "123e4567-e89b-12d3-a456-426614174002"] (by decide)).walk (fun t => t.length = 36) twoRows fuel none = some pages ∧
      pages.flatten = [text "123e4567-e89b-12d3-a456-426614174000", text "123e4567-e89b-12d3-a456-426614174001",
        text "123e4567-e89b-12d3-a456-426614174002"] ∧ ∀ page ∈ pages, page.length ≤ 2 := by
  refine (cursor_round_trip_iff (fun t => t.length = 36) twoRows (rows _ _)).2.mpr ?_
  intro before item rest split _ _
  have uuids : [text "123e4567-e89b-12d3-a456-426614174000", text "123e4567-e89b-12d3-a456-426614174001",
      text "123e4567-e89b-12d3-a456-426614174002"].all (fun t => t.length = 36) = true := by decide
  have member : item ∈ before ++ item :: rest := List.mem_append_right before List.mem_cons_self
  rw [← split] at member
  exact List.all_eq_true.mp uuids item member

/-- The second row ends the first page, and its cursor is refused. -/
theorem short_ids_refused : ¬∃ fuel pages,
    (rows [text "a", text "b", text "c"] (by decide)).walk (fun t => t.length = 36) twoRows fuel none = some pages := by
  rintro ⟨fuel, pages, walked⟩
  have uuids := uuids_of_walk fuel (List.nil_append _).symm reads_first walked
  exact absurd (uuids [text "a"] (text "b") [text "c"] rfl (List.cons_ne_nil _ _) (by decide)) (by decide)

end Pagination
