import AppPlatform.Lib.Url

/-!
# What the parser gives

A URL that was parsed is valid: its components have none of the bytes that the parser encodes or splits at, and it is of one of five
shapes. The host parser is assumed to read a serialized host back as it is.
-/

namespace Url
open Js Percent

theorem span_stop {α : Type*} {p : α → Bool} {s t : List α} (all : ∀ b ∈ s, p b = true)
    (stop : ∀ b ∈ t.head?, p b = false) :
    (s ++ t).takeWhile p = s ∧ (s ++ t).dropWhile p = t := by
  rw [List.takeWhile_append_of_pos all, List.dropWhile_append_of_pos all]
  cases t with
  | nil => simp
  | cons b t =>
    have no := stop b rfl
    simp [no]

theorem splitOnP_apart {α : Type*} {p : α → Bool} {xs piece : List α} (member : piece ∈ xs.splitOnP p) :
    ∀ x ∈ piece, p x = false := by
  induction xs generalizing piece with
  | nil =>
    rw [List.splitOnP_nil, List.mem_singleton] at member
    subst member
    exact fun x none => (List.not_mem_nil none).elim
  | cons y xs ih =>
    rw [List.splitOnP_cons_eq_if_modifyHead] at member
    split at member
    · rcases List.mem_cons.mp member with rfl | member
      · exact fun x none => (List.not_mem_nil none).elim
      · exact ih member
    · rename_i plain
      obtain ⟨first, others, split⟩ := List.exists_cons_of_ne_nil (List.splitOnP_ne_nil p xs)
      rw [split] at member ih
      rcases List.mem_cons.mp member with rfl | member
      · intro x inside
        rcases List.mem_cons.mp inside with rfl | inside
        · exact Bool.eq_false_iff.mpr plain
        · exact ih List.mem_cons_self x inside
      · exact ih (List.mem_cons_of_mem _ member)

theorem sparing_control : Sparing controlSet := ⟨by decide, by decide⟩

theorem sparing_fragment : Sparing fragmentSet := ⟨by decide, by decide⟩

theorem sparing_query (special : Bool) : Sparing (querySet special) := by
  cases special
  · exact ⟨by decide, by decide⟩
  · exact ⟨by decide, by decide⟩

theorem sparing_path : Sparing pathSet := ⟨by decide, by decide⟩

theorem sparing_userinfo : Sparing userinfoSet := ⟨by decide, by decide⟩

/-! ### Segments -/

/-- A segment that path state leaves as it is. -/
structure Segment (special : Bool) (s : Bytes) : Prop where
  plain : ∀ b ∈ s, pathSet b = false ∧ isSlash special b = false
  dot : isDot s = false
  doubleDot : isDoubleDot s = false

theorem segment_nil (special : Bool) : Segment special [] := ⟨nofun, rfl, rfl⟩

theorem isDrive_iff {s : Bytes} : isDrive s = true ↔ ∃ a b, s = [a, b] ∧ isLetter a = true ∧
    (b = byte ':' ∨ b = byte '|') := by
  unfold isDrive
  split
  · simp
  · rename_i other
    refine iff_of_false Bool.false_ne_true ?_
    rintro ⟨a, b, rfl, _⟩
    exact other a b rfl

theorem segment_normalDrive {special : Bool} {s : Bytes} (segment : Segment special s) : Segment special (normalDrive s) := by
  unfold normalDrive
  split
  · rename_i drive
    obtain ⟨a, b, rfl, _, _⟩ := isDrive_iff.mp drive
    refine ⟨?_, ?_, ?_⟩
    · intro c member
      rcases List.mem_cons.mp member with rfl | member
      · exact segment.plain c List.mem_cons_self
      · obtain rfl := List.mem_singleton.mp member
        cases special <;> decide
    · simp [isDot, ascii]
    · have other : lower (byte ':') ≠ byte '.' := by decide
      simp [isDoubleDot, ascii, other]
  · exact segment

theorem shorten_subset {file : Bool} {path : List Bytes} {s : Bytes} (member : s ∈ shorten file path) : s ∈ path := by
  match path with
  | [] => exact member
  | [segment] =>
    rw [shorten] at member
    split at member
    · exact member
    · cases member
  | _ :: _ :: _ => exact List.dropLast_subset _ member

theorem push_segments {special file last : Bool} {path : List Bytes} {s : Bytes} (all : ∀ s ∈ path, Segment special s)
    (plain : ∀ b ∈ s, pathSet b = false ∧ isSlash special b = false) : ∀ t ∈ push file path s last, Segment special t := by
  have ended : ∀ {path' : List Bytes}, (∀ t ∈ path', Segment special t) → ∀ t ∈ path' ++ [[]], Segment special t := by
    intro path' all t member
    rcases List.mem_append.mp member with member | member
    · exact all t member
    · obtain rfl := List.mem_singleton.mp member
      exact segment_nil special
  have shorter : ∀ t ∈ shorten file path, Segment special t := fun t member => all t (shorten_subset member)
  unfold push
  split
  · split
    · exact ended shorter
    · exact shorter
  · rename_i doubleDot
    split
    · split
      · exact ended all
      · exact all
    · rename_i dot
      have segment : Segment special s := ⟨plain, Bool.eq_false_iff.mpr dot, Bool.eq_false_iff.mpr doubleDot⟩
      intro t member
      rcases List.mem_append.mp member with member | member
      · exact all t member
      · obtain rfl := List.mem_singleton.mp member
        split
        · exact segment_normalDrive segment
        · exact segment

theorem pushAll_segments {special file : Bool} {path pieces : List Bytes} (all : ∀ s ∈ path, Segment special s)
    (plain : ∀ s ∈ pieces, ∀ b ∈ s, pathSet b = false ∧ isSlash special b = false) :
    ∀ t ∈ pushAll file path pieces, Segment special t := by
  induction pieces generalizing path with
  | nil => exact all
  | cons s pieces ih =>
    cases pieces with
    | nil => exact push_segments all (plain s List.mem_cons_self)
    | cons t pieces =>
      exact ih (push_segments all (plain s List.mem_cons_self)) fun u member => plain u (List.mem_cons_of_mem s member)

theorem push_ne_nil (file : Bool) (path : List Bytes) (s : Bytes) : push file path s true ≠ [] := by
  unfold push
  split
  · simp
  · split <;> simp

theorem pushAll_ne_nil (file : Bool) (path : List Bytes) {pieces : List Bytes} (some : pieces ≠ []) :
    pushAll file path pieces ≠ [] := by
  induction pieces generalizing path with
  | nil => exact (some rfl).elim
  | cons s pieces ih =>
    cases pieces with
    | nil => exact push_ne_nil file path s
    | cons t pieces => exact ih _ (List.cons_ne_nil t pieces)

theorem slash_encode {special : Bool} {piece : Bytes} (apart : ∀ b ∈ piece, isSlash special b = false) :
    ∀ b ∈ encode pathSet piece, pathSet b = false ∧ isSlash special b = false := by
  intro b member
  refine ⟨encode_plain sparing_path piece b member, ?_⟩
  rcases mem_encode member with ⟨given, _⟩ | rfl | ⟨n, small, rfl⟩
  · exact apart b given
  · cases special <;> rfl
  · have digits : ∀ n < 16, isSlash special (hexDigit n) = false := by cases special <;> decide
    exact digits n small

theorem readSegments_segments {special file : Bool} {path : List Bytes} (all : ∀ s ∈ path, Segment special s) (input : Bytes) :
    ∀ s ∈ readSegments special file path input, Segment special s := by
  refine pushAll_segments all fun s member => ?_
  obtain ⟨piece, given, rfl⟩ := List.mem_map.mp member
  exact slash_encode (splitOnP_apart given)

theorem readSegments_ne_nil (special file : Bool) (path : List Bytes) (input : Bytes) : readSegments special file path input ≠ [] :=
  pushAll_ne_nil file path fun empty => List.splitOnP_ne_nil _ _ (List.map_eq_nil_iff.mp empty)

/-- A drive letter at the front has a colon. -/
def NormalFront (path : List Bytes) : Prop := ∀ s ∈ path.head?, isDrive s = true → isNormalDrive s = true

theorem normalFront_nil : NormalFront [] := by
  intro s none
  cases none

theorem normalDrive_normal {s : Bytes} (drive : isDrive (normalDrive s) = true) : isNormalDrive (normalDrive s) = true := by
  unfold normalDrive at drive ⊢
  split
  · rename_i was
    obtain ⟨a, b, rfl, letter, _⟩ := isDrive_iff.mp was
    simp [isNormalDrive, letter]
  · rename_i never
    rw [if_neg never] at drive
    exact (never drive).elim

theorem normalFront_append {path : List Bytes} {s : Bytes} (front : NormalFront path)
    (last : path = [] → isDrive s = true → isNormalDrive s = true) : NormalFront (path ++ [s]) := by
  cases path with
  | nil =>
    rintro t ⟨⟩
    exact last rfl
  | cons t path => exact front

theorem normalFront_shorten {path : List Bytes} (front : NormalFront path) : NormalFront (shorten true path) := by
  match path with
  | [] => exact front
  | [segment] =>
    rw [shorten]
    split
    · exact front
    · nofun
  | _ :: _ :: _ => exact front

theorem push_front {path : List Bytes} (front : NormalFront path) (s : Bytes) (last : Bool) : NormalFront (push true path s last) := by
  have ended : ∀ {path : List Bytes}, NormalFront path → NormalFront (path ++ [[]]) :=
    fun front => normalFront_append front fun _ => nofun
  unfold push
  split
  · split
    · exact ended (normalFront_shorten front)
    · exact normalFront_shorten front
  · split
    · split
      · exact ended front
      · exact front
    · refine normalFront_append front ?_
      rintro rfl
      exact normalDrive_normal

theorem pushAll_front {path : List Bytes} (front : NormalFront path) (pieces : List Bytes) : NormalFront (pushAll true path pieces) := by
  induction pieces generalizing path with
  | nil => exact front
  | cons s pieces ih =>
    cases pieces with
    | nil => exact push_front front s true
    | cons t pieces => exact ih (push_front front s false)

/-! ### Valid URLs -/

/-- No forbidden host code point, and none that is encoded. -/
def isHostByte (b : UInt8) : Bool := !controlSet b && !(ascii " #/:<>?@[\\]^|").contains b

def isAddressByte (b : UInt8) : Bool := isDigit b || (97 ≤ b && b ≤ 102) || b = byte ':'

set_option synthInstance.maxSize 512 in
set_option synthInstance.maxHeartbeats 80000 in
/-- How the classes of bytes lie to each other: one check of the 256 bytes, on which every later fact about a byte rests. -/
theorem byte_classes : ∀ b : UInt8,
    (controlSet b = false → b.toNat < 0x80 ∧ isDropped b = false) ∧
    (∀ special, querySet special b = false → controlSet b = false ∧ isTrimmed b = false ∧ b ≠ byte '#') ∧
    (fragmentSet b = false → controlSet b = false ∧ isTrimmed b = false) ∧
    (pathSet b = false → controlSet b = false ∧ isEnd b = false ∧ isTrimmed b = false) ∧
    (userinfoSet b = false → controlSet b = false ∧ isEnd b = false ∧ isSlash true b = false ∧
      b ≠ byte '@' ∧ b ≠ byte ':') ∧
    (isHostByte b = true → controlSet b = false ∧ isEnd b = false ∧ isSlash true b = false ∧
      b ≠ byte '@' ∧ b ≠ byte ':' ∧
      b ≠ byte '[' ∧ b ≠ byte ']' ∧ b ≠ byte '|') ∧
    (isAddressByte b = true → controlSet b = false ∧ isEnd b = false ∧ isSlash true b = false ∧
      b ≠ byte '@' ∧ b ≠ byte '[' ∧
      b ≠ byte ']') ∧
    (isSchemeByte b = true → controlSet b = false ∧ isTrimmed b = false ∧ isSchemeByte (lower b) = true ∧
      isUpper (lower b) = false) ∧
    (isLetter b = true → isSchemeByte b = true ∧ isLower (lower b) = true) ∧
    (isLower b = true → isLetter b = true ∧ isUpper b = false ∧ isHostByte b = true) ∧
    (isDigit b = true → controlSet b = false ∧ isEnd b = false ∧ isSlash true b = false ∧ b ≠ byte '@') ∧
    (isEnd b = true → isSlash false b = false) ∧
    (isSlash true b = true → isEnd b = false) :=
  forall_byte (by decide +kernel)

theorem control_query {special : Bool} (b : UInt8) : querySet special b = false → controlSet b = false ∧
    isTrimmed b = false ∧ b ≠ byte '#' :=
  (byte_classes b).2.1 special

theorem control_fragment (b : UInt8) : fragmentSet b = false → controlSet b = false ∧ isTrimmed b = false :=
  (byte_classes b).2.2.1

theorem control_path (b : UInt8) : pathSet b = false → controlSet b = false ∧ isEnd b = false ∧ isTrimmed b = false :=
  (byte_classes b).2.2.2.1

theorem control_userinfo (b : UInt8) : userinfoSet b = false →
    controlSet b = false ∧ isEnd b = false ∧ isSlash true b = false ∧ b ≠ byte '@' ∧ b ≠ byte ':' :=
  (byte_classes b).2.2.2.2.1

theorem host_byte (b : UInt8) : isHostByte b = true →
    controlSet b = false ∧ isEnd b = false ∧ isSlash true b = false ∧ b ≠ byte '@' ∧ b ≠ byte ':' ∧
      b ≠ byte '[' ∧ b ≠ byte ']' ∧
      b ≠ byte '|' :=
  (byte_classes b).2.2.2.2.2.1

theorem address_byte (b : UInt8) : isAddressByte b = true →
    controlSet b = false ∧ isEnd b = false ∧ isSlash true b = false ∧ b ≠ byte '@' ∧ b ≠ byte '[' ∧ b ≠ byte ']' :=
  (byte_classes b).2.2.2.2.2.2.1

theorem scheme_byte (b : UInt8) : isSchemeByte b = true →
    controlSet b = false ∧ isTrimmed b = false ∧ isSchemeByte (lower b) = true ∧ isUpper (lower b) = false :=
  (byte_classes b).2.2.2.2.2.2.2.1

theorem letter_byte (b : UInt8) : isLetter b = true → isSchemeByte b = true ∧ isLower (lower b) = true :=
  (byte_classes b).2.2.2.2.2.2.2.2.1

theorem lower_byte (b : UInt8) : isLower b = true → isLetter b = true ∧ isUpper b = false ∧ isHostByte b = true :=
  (byte_classes b).2.2.2.2.2.2.2.2.2.1

theorem digit_byte (b : UInt8) : isDigit b = true → controlSet b = false ∧ isEnd b = false ∧
    isSlash true b = false ∧ b ≠ byte '@' :=
  (byte_classes b).2.2.2.2.2.2.2.2.2.2.1

theorem end_byte (b : UInt8) : isEnd b = true → isSlash false b = false :=
  (byte_classes b).2.2.2.2.2.2.2.2.2.2.2.1

theorem slash_byte (b : UInt8) : isSlash true b = true → isEnd b = false :=
  (byte_classes b).2.2.2.2.2.2.2.2.2.2.2.2

/-- A domain, an IPv4 address or an opaque host; or an IPv6 address. -/
def IsHost (h : Bytes) : Prop :=
  (h ≠ [] ∧ ∀ b ∈ h, isHostByte b = true) ∨ ∃ inner, h = byte '[' :: (inner ++ [byte ']']) ∧
    ∀ b ∈ inner, isAddressByte b = true

/-- A host that was read is serialized without a byte that ends it, and is read back. -/
structure LawfulHost (host : HostParser) : Prop where
  isHost : ∀ {special input h}, host special input = some h → IsHost h
  again : ∀ {special input h}, host special input = some h → host special h = some h

def IsScheme (scheme : Bytes) : Prop :=
  ∃ c rest, scheme = c :: rest ∧ isLower c = true ∧ ∀ b ∈ rest, isSchemeByte b = true ∧ isUpper b = false

inductive Shape (host : HostParser) (u : Url) : Prop where
  | server (h : Bytes) (segments : List Bytes) (special : isSpecial u.scheme = true) (file : isFile u.scheme = false)
      (isHost : u.host = some h) (parsed : host true h = some h)
      (port : ∀ n, u.port = some n → n ≤ 65535 ∧ specialPort u.scheme ≠ some (some n)) (path : u.path = .list segments)
      (nonempty : segments ≠ []) (all : ∀ s ∈ segments, Segment true s)
  | file (h : Bytes) (segments : List Bytes) (file : isFile u.scheme = true) (isHost : u.host = some h)
      (parsed : h = [] ∨ host true h = some h ∧ h ≠ ascii "localhost") (username : u.username = []) (password : u.password = [])
      (port : u.port = none) (path : u.path = .list segments) (nonempty : segments ≠ []) (all : ∀ s ∈ segments, Segment true s)
      (front : NormalFront segments)
  | other (h : Bytes) (segments : List Bytes) (special : isSpecial u.scheme = false) (isHost : u.host = some h)
      (parsed : (h = [] ∧ u.username = [] ∧ u.password = [] ∧ u.port = none) ∨ host false h = some h)
      (port : ∀ n, u.port = some n → n ≤ 65535) (path : u.path = .list segments) (all : ∀ s ∈ segments, Segment false s)
  | hostless (segments : List Bytes) (special : isSpecial u.scheme = false) (isHost : u.host = none) (username : u.username = [])
      (password : u.password = []) (port : u.port = none) (path : u.path = .list segments) (nonempty : segments ≠ [])
      (all : ∀ s ∈ segments, Segment false s)
  | text (text : Bytes) (special : isSpecial u.scheme = false) (isHost : u.host = none) (username : u.username = [])
      (password : u.password = []) (port : u.port = none) (path : u.path = .text text)
      (plain : ∀ b ∈ text, controlSet b = false ∧ isEnd b = false) (front : text.head? ≠ some (byte '/'))

structure Valid (host : HostParser) (u : Url) : Prop where
  scheme : IsScheme u.scheme
  username : ∀ b ∈ u.username, userinfoSet b = false
  password : ∀ b ∈ u.password, userinfoSet b = false
  query : ∀ q, u.query = some q → ∀ b ∈ q, querySet (isSpecial u.scheme) b = false
  fragment : ∀ f, u.fragment = some f → ∀ b ∈ f, fragmentSet b = false
  shape : Shape host u

theorem Shape.congr {host : HostParser} {u : Url} (shape : Shape host u) (query fragment : Option Bytes) :
    Shape host { u with query, fragment } := by
  cases shape with
  | server h segments special file isHost parsed port path nonempty all =>
    exact .server h segments special file isHost parsed port path nonempty all
  | file h segments file isHost parsed username password port path nonempty all front =>
    exact .file h segments file isHost parsed username password port path nonempty all front
  | other h segments special isHost parsed port path all => exact .other h segments special isHost parsed port path all
  | hostless segments special isHost username password port path nonempty all =>
    exact .hostless segments special isHost username password port path nonempty all
  | text text special isHost username password port path plain front =>
    exact .text text special isHost username password port path plain front

theorem readQuery_plain {special : Bool} {rest q : Bytes} (read : readQuery special rest = some q) :
    ∀ b ∈ q, querySet special b = false := by
  cases rest with
  | nil => cases read
  | cons c rest =>
    rw [readQuery] at read
    split at read
    · cases read
      exact encode_plain (sparing_query special) _
    · cases read

theorem readFragment_plain {rest f : Bytes} (read : readFragment rest = some f) : ∀ b ∈ f, fragmentSet b = false := by
  unfold readFragment at read
  split at read
  · cases read
  · cases read
    exact encode_plain sparing_fragment _

/-- The scheme and the credentials are those of a valid URL. -/
structure Named (u : Url) : Prop where
  scheme : IsScheme u.scheme
  username : ∀ b ∈ u.username, userinfoSet b = false
  password : ∀ b ∈ u.password, userinfoSet b = false

theorem valid_finish {host : HostParser} {u : Url} (named : Named u) (shape : Shape host u) (rest : Bytes) :
    Valid host (finish u rest) where
  scheme := named.scheme
  username := named.username
  password := named.password
  query _ read := readQuery_plain read
  fragment _ read := readFragment_plain read
  shape := shape.congr _ _

theorem named_bare {scheme : Bytes} (isScheme : IsScheme scheme) (host : Option Bytes) :
    Named (bare scheme host) := ⟨isScheme, List.forall_mem_nil _, List.forall_mem_nil _⟩

/-! ### What each state gives -/

theorem valid_shape {host : HostParser} {u : Url} (named : Named u) {path : List Bytes} {input : Bytes}
    (shape : Shape host { u with
      path := .list (readSegments (isSpecial u.scheme) (isFile u.scheme) path (input.takeWhile fun b => !isEnd b)) }) :
    Valid host (readPath u path input) where
  scheme := named.scheme
  username := named.username
  password := named.password
  query _ read := readQuery_plain read
  fragment _ read := readFragment_plain read
  shape := shape.congr _ _

theorem valid_readPath {host : HostParser} {u : Url} (named : Named u) {h : Bytes} (special : isSpecial u.scheme = true)
    (file : isFile u.scheme = false) (isHost : u.host = some h) (parsed : host true h = some h)
    (port : ∀ n, u.port = some n → n ≤ 65535 ∧ specialPort u.scheme ≠ some (some n)) {path : List Bytes}
    (all : ∀ s ∈ path, Segment true s) (input : Bytes) : Valid host (readPath u path input) := by
  refine valid_shape named (.server h _ special file isHost parsed port rfl (readSegments_ne_nil _ _ _ _) ?_)
  rw [special]
  exact readSegments_segments all _

theorem valid_readPath_file {host : HostParser} {scheme h : Bytes} (isScheme : IsScheme scheme) (file : isFile scheme = true)
    (special : isSpecial scheme = true) (parsed : h = [] ∨ host true h = some h ∧ h ≠ ascii "localhost") (input : Bytes) :
    Valid host (readPath (bare scheme (some h)) [] input) := by
  refine valid_shape (named_bare isScheme _)
    (.file h _ file rfl parsed rfl rfl rfl rfl (readSegments_ne_nil _ _ _ _) ?_ ?_)
  · change ∀ s ∈ readSegments (isSpecial scheme) _ _ _, Segment true s
    rw [special]
    exact readSegments_segments (List.forall_mem_nil _) _
  · change NormalFront (readSegments _ (isFile scheme) _ _)
    rw [file]
    exact pushAll_front normalFront_nil _

theorem valid_readPath_hostless {host : HostParser} {scheme : Bytes} (isScheme : IsScheme scheme) (special : isSpecial scheme = false)
    (input : Bytes) : Valid host (readPath (bare scheme none) [] input) := by
  refine valid_shape (named_bare isScheme _) (.hostless _ special rfl rfl rfl rfl rfl (readSegments_ne_nil _ _ _ _) ?_)
  change ∀ s ∈ readSegments (isSpecial scheme) _ _ _, Segment false s
  rw [special]
  exact readSegments_segments (List.forall_mem_nil _) _

theorem startPath_special {u : Url} (special : isSpecial u.scheme = true) (input : Bytes) :
    ∃ rest, startPath u input = readPath u [] rest := by
  cases input with
  | nil =>
    rw [startPath, special, if_pos rfl]
    exact ⟨[], rfl⟩
  | cons c input =>
    rw [startPath, special]
    split
    · exact ⟨input, rfl⟩
    · exact ⟨c :: input, rfl⟩

theorem valid_startPath {host : HostParser} {u : Url} (named : Named u) {h : Bytes} (special : isSpecial u.scheme = true)
    (file : isFile u.scheme = false) (isHost : u.host = some h) (parsed : host true h = some h)
    (port : ∀ n, u.port = some n → n ≤ 65535 ∧ specialPort u.scheme ≠ some (some n)) (input : Bytes) :
    Valid host (startPath u input) := by
  obtain ⟨rest, same⟩ := startPath_special special input
  rw [same]
  exact valid_readPath named special file isHost parsed port (List.forall_mem_nil _) rest

theorem valid_startPath_other {host : HostParser} {u : Url} (named : Named u) {h : Bytes} (special : isSpecial u.scheme = false)
    (isHost : u.host = some h)
    (parsed : (h = [] ∧ u.username = [] ∧ u.password = [] ∧ u.port = none) ∨ host false h = some h)
    (port : ∀ n, u.port = some n → n ≤ 65535) (input : Bytes) : Valid host (startPath u input) := by
  have path : ∀ input, Valid host (readPath u [] input) := by
    intro input
    refine valid_shape named (.other h _ special isHost parsed port rfl ?_)
    rw [special]
    exact readSegments_segments (List.forall_mem_nil _) _
  have empty : ∀ rest, Valid host (finish { u with path := .list [] } rest) := fun rest =>
    valid_finish (u := { u with path := .list [] }) ⟨named.scheme, named.username, named.password⟩
      (.other h [] special isHost parsed port rfl (List.forall_mem_nil _)) rest
  cases input with
  | nil =>
    rw [startPath, special, if_neg Bool.false_ne_true]
    exact empty []
  | cons c input =>
    rw [startPath, special]
    split
    · exact path input
    · split
      · exact empty _
      · exact path _

theorem readPort_bounded {scheme digits : Bytes} {port : Option ℕ} (read : readPort scheme digits = some port) :
    ∀ n, port = some n → n ≤ 65535 ∧ specialPort scheme ≠ some (some n) := by
  rintro n rfl
  unfold readPort at read
  split at read
  · split at read
    · cases read
    · dsimp only at read
      split at read
      · cases read
      · rename_i small
        split at read
        · cases read
        · rename_i other
          cases read
          exact ⟨Nat.le_of_not_lt small, other⟩
  · cases read

theorem no_credentials {whole : Bytes} (none : whole.contains (byte '@') = false) :
    (whole.rdropWhile (· ≠ byte '@')).dropLast = [] := by
  have nil : whole.rdropWhile (· ≠ byte '@') = [] := by
    rw [List.rdropWhile_eq_nil_iff]
    intro b member
    rw [decide_eq_true_iff]
    rintro rfl
    rw [List.contains_eq_mem, decide_eq_false_iff_not] at none
    exact none member
  rw [nil]
  rfl

theorem valid_readAuthority {host : HostParser} (lawful : LawfulHost host) {scheme : Bytes} (isScheme : IsScheme scheme)
    (file : isFile scheme = false) {input : Bytes} {u : Url} (read : readAuthority host scheme input = some u) : Valid host u := by
  unfold readAuthority at read
  dsimp only at read
  generalize input.takeWhile (fun b => !(isSlash (isSpecial scheme) b || isEnd b)) = whole at read
  generalize splitPort false (whole.rtakeWhile fun b => decide (b ≠ byte '@')) = split' at read
  split at read
  · cases read
  · rename_i given
    obtain ⟨h, isHost, read⟩ := Option.bind_eq_some_iff.mp read
    obtain ⟨port, isPort, rfl⟩ := Option.map_eq_some_iff.mp read
    have bounded : ∀ n, port = some n → n ≤ 65535 ∧ specialPort scheme ≠ some (some n) := by
      cases found : split'.2 with
      | none =>
        rw [found] at isPort
        rintro n rfl
        cases isPort
      | some digits =>
        rw [found] at isPort
        exact readPort_bounded isPort
    unfold readHost at isHost
    cases special : isSpecial scheme with
    | true =>
      rw [special] at isHost
      refine valid_startPath ⟨isScheme, encode_plain sparing_userinfo _, encode_plain sparing_userinfo _⟩
        special file rfl ?_ bounded _
      split at isHost
      · cases isHost
      · exact lawful.again isHost
    | false =>
      rw [special] at isHost
      refine valid_startPath_other ⟨isScheme, encode_plain sparing_userinfo _, encode_plain sparing_userinfo _⟩ special rfl ?_
        (fun n same => (bounded n same).1) _
      split at isHost
      · rename_i empty
        cases isHost
        rw [empty, decide_eq_true rfl, Bool.true_and, Bool.or_eq_true, not_or, Bool.not_eq_true] at given
        obtain ⟨noAt, noPort⟩ := given
        rw [Bool.not_eq_true, Option.isSome_eq_false_iff, Option.isNone_iff_eq_none] at noPort
        rw [noPort] at isPort
        refine .inl ⟨rfl, ?_, ?_, (Option.some.inj isPort).symm⟩
        · dsimp only
          rw [no_credentials noAt]
          rfl
        · dsimp only
          rw [no_credentials noAt]
          rfl
      · exact .inr (lawful.again isHost)

theorem valid_readFileHost {host : HostParser} (lawful : LawfulHost host) {scheme : Bytes} (isScheme : IsScheme scheme)
    (file : isFile scheme = true) (special : isSpecial scheme = true) {input : Bytes} {u : Url}
    (read : readFileHost host scheme input = some u) : Valid host u := by
  have path : ∀ {h : Bytes}, h = [] ∨ host true h = some h ∧ h ≠ ascii "localhost" → ∀ rest,
      Valid host (startPath (bare scheme (some h)) rest) := by
    intro h parsed rest
    obtain ⟨more, same⟩ := startPath_special (u := bare scheme (some h)) special rest
    rw [same]
    exact valid_readPath_file isScheme file special parsed more
  unfold readFileHost at read
  dsimp only at read
  split at read
  · cases read
    exact valid_readPath_file isScheme file special (.inl rfl) _
  · split at read
    · cases read
      exact path (.inl rfl) _
    · obtain ⟨h, isHost, rfl⟩ := Option.map_eq_some_iff.mp read
      apply path
      split
      · exact .inl rfl
      · rename_i other
        exact .inr ⟨lawful.again isHost, other⟩

theorem isSpecial_file {scheme : Bytes} (file : isFile scheme = true) : isSpecial scheme = true := by
  obtain rfl : scheme = ascii "file" := of_decide_eq_true file
  rfl

theorem isFile_other {scheme : Bytes} (special : isSpecial scheme = false) : isFile scheme = false := by
  rw [Bool.eq_false_iff]
  intro file
  cases special.symm.trans (isSpecial_file file)

theorem valid_readFile {host : HostParser} (lawful : LawfulHost host) {scheme : Bytes} (isScheme : IsScheme scheme)
    (file : isFile scheme = true) {input : Bytes} {u : Url} (read : readFile host scheme input = some u) : Valid host u := by
  have special := isSpecial_file file
  have path : ∀ rest, Valid host (readPath (bare scheme (some [])) [] rest) := valid_readPath_file isScheme file special (.inl rfl)
  unfold readFile at read
  split at read
  · cases read
    exact path _
  · split at read
    · split at read
      · cases read
        exact path _
      · split at read
        · exact valid_readFileHost lawful isScheme file special read
        · cases read
          exact path _
    · cases read
      exact path _

theorem valid_readOther {host : HostParser} (lawful : LawfulHost host) {scheme : Bytes} (isScheme : IsScheme scheme)
    (special : isSpecial scheme = false) {input : Bytes} {u : Url} (read : readOther host scheme input = some u) : Valid host u := by
  have file := isFile_other special
  have text : ∀ {path : Bytes}, (∀ b ∈ path, controlSet b = false ∧ isEnd b = false) →
    path.head? ≠ some (byte '/') → ∀ rest,
      Valid host (finish { bare scheme none with path := .text path } rest) := fun {path} plain front rest =>
    valid_finish (u := { bare scheme none with path := .text path }) ⟨isScheme, List.forall_mem_nil _, List.forall_mem_nil _⟩
      (.text path special rfl rfl rfl rfl rfl plain front) rest
  unfold readOther at read
  split at read
  · rename_i c rest
    split at read
    · split at read
      · split at read
        · exact valid_readAuthority lawful isScheme file read
        · cases read
          exact valid_readPath_hostless isScheme special _
      · cases read
        exact valid_readPath_hostless isScheme special _
    · rename_i front
      cases read
      refine text ?_ ?_ _
      · intro b member
        refine ⟨encode_plain sparing_control _ b member, ?_⟩
        rcases mem_encode member with ⟨given, _⟩ | rfl | ⟨n, small, rfl⟩
        · simpa using List.mem_takeWhile_imp given
        · rfl
        · have digits : ∀ n < 16, isEnd (hexDigit n) = false := by decide
          exact digits n small
      · rw [List.takeWhile_cons]
        split
        · rw [encode, List.flatMap_cons]
          split
          · exact fun same => by cases same
          · exact fun same => front (Option.some.inj same)
        · exact fun same => by cases same
  · cases read
    exact text (List.forall_mem_nil _) (fun same => by cases same) _

/-- A URL of the scheme `http` or `https`. -/
structure Base (host : HostParser) (base : Url) : Prop extends Valid host base where
  web : base.scheme = ascii "http" ∨ base.scheme = ascii "https"

theorem Base.special {host : HostParser} {base : Url} (is : Base host base) : isSpecial base.scheme = true ∧
    isFile base.scheme = false := by
  rcases is.web with same | same <;> rw [same] <;> decide

theorem Base.server {host : HostParser} {base : Url} (is : Base host base) :
    ∃ h segments, base.host = some h ∧ host true h = some h ∧
    (∀ n, base.port = some n → n ≤ 65535 ∧ specialPort base.scheme ≠ some (some n)) ∧
      base.path = .list segments ∧ segments ≠ [] ∧
    ∀ s ∈ segments, Segment true s := by
  obtain ⟨special, file⟩ := is.special
  cases is.shape with
  | server h segments _ _ isHost parsed port path nonempty all => exact ⟨h, segments, isHost, parsed, port, path, nonempty, all⟩
  | file _ _ isFile => cases file.symm.trans isFile
  | other _ _ other => cases special.symm.trans other
  | hostless _ other => cases special.symm.trans other
  | text _ other => cases special.symm.trans other

theorem valid_readRelative {host : HostParser} (lawful : LawfulHost host) {base : Url} (is : Base host base) {input : Bytes} {u : Url}
    (read : readRelative host base input = some u) : Valid host u := by
  obtain ⟨special, file⟩ := is.special
  obtain ⟨h, segments', isHost, parsed, port, path, _, all⟩ := is.server
  have named : Named base := ⟨is.scheme, is.username, is.password⟩
  have readPath' : ∀ {path : List Bytes}, (∀ s ∈ path, Segment true s) → ∀ rest, Valid host (readPath base path rest) :=
    fun all rest => valid_readPath named special file isHost parsed port all rest
  unfold readRelative at read
  split at read
  · cases read
    exact ⟨is.scheme, is.username, is.password, is.query, nofun, is.shape.congr _ _⟩
  · split at read
    · split at read
      · cases read
        exact readPath' (List.forall_mem_nil _) _
      · split at read
        · exact valid_readAuthority lawful is.scheme file read
        · cases read
          exact readPath' (List.forall_mem_nil _) _
    · split at read
      · cases read
        exact valid_finish named is.shape _
      · split at read
        · cases read
          exact ⟨is.scheme, is.username, is.password, is.query, fun _ read => readFragment_plain read, is.shape.congr _ _⟩
        · cases read
          refine readPath' (fun s member => all s ?_) _
          rw [path] at member
          exact shorten_subset member

theorem schemeOf_isScheme {input scheme rest : Bytes} (read : schemeOf input = some (scheme, rest)) : IsScheme scheme := by
  unfold schemeOf at read
  split at read
  · cases read
  · split at read
    · rename_i taken
      obtain ⟨_, letter⟩ := Bool.and_eq_true_iff.mp taken
      cases read
      cases input with
      | nil => cases letter
      | cons c input =>
        have letter : isLetter c = true := letter
        rw [List.takeWhile_cons, (letter_byte c letter).1, if_pos rfl, List.map_cons]
        refine ⟨_, _, rfl, (letter_byte c letter).2, ?_⟩
        intro b member
        obtain ⟨a, given, rfl⟩ := List.mem_map.mp member
        exact (scheme_byte a (List.mem_takeWhile_imp given)).2.2
    · cases read

theorem valid_parse {host : HostParser} (lawful : LawfulHost host) {base : Url} (is : Base host base) {input : Bytes} {u : Url}
    (read : parse host base input = some u) : Valid host u := by
  unfold parse at read
  split at read
  · rename_i scheme rest found
    have isScheme := schemeOf_isScheme found
    unfold readAbsolute at read
    split at read
    · rename_i file
      exact valid_readFile lawful isScheme file read
    · rename_i file
      split at read
      · split at read
        · exact valid_readRelative lawful is read
        · exact valid_readAuthority lawful isScheme (Bool.eq_false_iff.mpr file) read
      · rename_i special
        exact valid_readOther lawful isScheme (Bool.eq_false_iff.mpr special) read
  · exact valid_readRelative lawful is read

end Url
