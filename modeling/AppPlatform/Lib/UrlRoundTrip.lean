import AppPlatform.Lib.UrlValid

/-!
# Reading a serialized URL

A valid URL with a query is read back from its serialization, whatever the base; and its path and query alone are read against a
base as that path and that query, unless the path starts with two slashes.
-/

namespace Url
open Js Percent

/-! ### Bytes -/

/-- Neither a control nor beyond ASCII. -/
def Printable (bytes : Bytes) : Prop := ∀ b ∈ bytes, controlSet b = false

theorem printable_append {s t : Bytes} (first : Printable s) (second : Printable t) : Printable (s ++ t) := by
  intro b member
  rcases List.mem_append.mp member with member | member
  · exact first b member
  · exact second b member

theorem printable_cons {b : UInt8} {s : Bytes} (first : controlSet b = false) (rest : Printable s) : Printable (b :: s) := by
  intro c member
  rcases List.mem_cons.mp member with rfl | member
  · exact first
  · exact rest c member

theorem printable_slashes : Printable (ascii "//") := by
  change Printable [byte '/', byte '/']
  exact printable_cons rfl (printable_cons rfl (List.forall_mem_nil _))

theorem printable_dot : Printable (ascii "/.") := by
  change Printable [byte '/', byte '.']
  exact printable_cons rfl (printable_cons rfl (List.forall_mem_nil _))

theorem printable_ascii {bytes : Bytes} (printable : Printable bytes) : Ascii bytes := by
  exact fun b member => ((byte_classes b).1 (printable b member)).1

theorem isSlash_false {special : Bool} {b : UInt8} (other : isSlash true b = false) : isSlash special b = false := by
  cases special with
  | true => exact other
  | false =>
    unfold isSlash at other ⊢
    rw [Bool.or_eq_false_iff] at other ⊢
    exact ⟨other.1, rfl⟩

theorem slashes_all : ∀ b ∈ ascii "//", isSlash true b = true := by
  change ∀ b ∈ [byte '/', byte '/'], isSlash true b = true
  intro b member
  rcases List.mem_cons.mp member with rfl | member
  · rfl
  · obtain rfl := List.mem_singleton.mp member
    rfl

theorem isSlash_slash (special : Bool) : isSlash special (byte '/') = true := by cases special <;> rfl

theorem host_inside {h : Bytes} (isHost : IsHost h) :
    ∀ b ∈ h, controlSet b = false ∧ isEnd b = false ∧ isSlash true b = false ∧ b ≠ byte '@' := by
  intro b member
  rcases isHost with ⟨_, plain⟩ | ⟨inner, rfl, plain⟩
  · obtain ⟨printable, ends, slash, at', _⟩ := host_byte b (plain b member)
    exact ⟨printable, ends, slash, at'⟩
  · rcases List.mem_cons.mp member with rfl | member
    · decide
    · rcases List.mem_append.mp member with member | member
      · obtain ⟨printable, ends, slash, at', _⟩ := address_byte b (plain b member)
        exact ⟨printable, ends, slash, at'⟩
      · obtain rfl := List.mem_singleton.mp member
        decide

theorem host_ne_nil {h : Bytes} (isHost : IsHost h) : h ≠ [] := by
  rcases isHost with ⟨nonempty, _⟩ | ⟨inner, rfl, _⟩
  · exact nonempty
  · exact List.cons_ne_nil _ _

theorem host_not_drive {h : Bytes} (isHost : IsHost h) : isDrive h = false := by
  rw [Bool.eq_false_iff]
  intro drive
  obtain ⟨a, b, rfl, letter, second⟩ := isDrive_iff.mp drive
  rcases isHost with ⟨_, plain⟩ | ⟨inner, same, _⟩
  · have bytes := host_byte b (plain b (by simp))
    rcases second with rfl | rfl
    · exact bytes.2.2.2.2.1 rfl
    · exact bytes.2.2.2.2.2.2.2 rfl
  · obtain rfl := (List.cons.inj same).1
    exact absurd letter (by decide)

theorem clean_eq {input : Bytes} (printable : Printable input) (front : ∀ b ∈ input.head?, isTrimmed b = false)
    (back : ∀ b ∈ input.getLast?, isTrimmed b = false) : clean input = input := by
  have first : input.dropWhile isTrimmed = input := (span_stop (s := []) (List.forall_mem_nil _) front).2
  have last : input.rdropWhile isTrimmed = input := by
    rw [List.rdropWhile_eq_self_iff]
    intro nonempty
    rw [back _ (List.getLast?_eq_some_getLast nonempty)]
    exact Bool.false_ne_true
  rw [clean, first, last, List.filter_eq_self]
  intro b member
  rw [((byte_classes b).1 (printable b member)).2]
  rfl

theorem schemeOf_eq {scheme rest : Bytes} (isScheme : IsScheme scheme) :
    schemeOf (scheme ++ byte ':' :: rest) = some (scheme, rest) := by
  obtain ⟨c, more, rfl, first, others⟩ := isScheme
  have letter : ∀ b : UInt8, isLower b = true → isLetter b = true ∧ isSchemeByte b = true ∧ isUpper b = false :=
    fun b lower => ⟨(lower_byte b lower).1, (letter_byte b (lower_byte b lower).1).1, (lower_byte b lower).2.1⟩
  have bytes : ∀ b ∈ c :: more, isSchemeByte b = true ∧ isUpper b = false := by
    intro b member
    rcases List.mem_cons.mp member with rfl | member
    · exact (letter b first).2
    · exact others b member
  have lowered : (c :: more).map lower = c :: more := by
    conv_rhs => rw [← List.map_id (c :: more)]
    refine List.map_congr_left fun b member => ?_
    rw [lower, (bytes b member).2, if_neg Bool.false_ne_true]
    rfl
  obtain ⟨taken, dropped⟩ := span_stop (p := isSchemeByte) (s := c :: more) (t := byte ':' :: rest)
    (fun b member => (bytes b member).1) (by rintro b ⟨⟩; rfl)
  have whole : ((c :: more) ++ byte ':' :: rest).head?.any isLetter = true := (letter c first).1
  unfold schemeOf
  rw [dropped, taken, lowered, whole]
  rfl

/-! ### Paths -/

theorem splitOnP_slash {special : Bool} {segments : List Bytes} (nonempty : segments ≠ [])
    (plain : ∀ s ∈ segments, ∀ b ∈ s, isSlash special b = false) :
    ([byte '/'].intercalate segments).splitOnP (isSlash special) = segments := by
  induction segments with
  | nil => exact (nonempty rfl).elim
  | cons s segments ih =>
    cases segments with
    | nil =>
      rw [List.intercalate_singleton]
      exact List.splitOnP_eq_singleton (plain s List.mem_cons_self)
    | cons t segments =>
      rw [List.intercalate_cons_cons, List.append_assoc, List.singleton_append,
        List.splitOnP_append_cons_of_forall_mem (plain s List.mem_cons_self) _ (isSlash_slash special),
        ih (List.cons_ne_nil t segments) fun u member => plain u (List.mem_cons_of_mem s member)]

theorem pathname_list {segments : List Bytes} (nonempty : segments ≠ []) :
    segments.flatMap (byte '/' :: ·) = byte '/' :: [byte '/'].intercalate segments := by
  induction segments with
  | nil => exact (nonempty rfl).elim
  | cons s segments ih =>
    cases segments with
    | nil => simp
    | cons t segments =>
      rw [List.flatMap_cons, ih (List.cons_ne_nil t segments), List.intercalate_cons_cons, List.append_assoc]
      rfl

theorem normalDrive_eq {s : Bytes} (normal : isDrive s = true → isNormalDrive s = true) : normalDrive s = s := by
  unfold normalDrive
  split
  · rename_i drive
    obtain ⟨a, b, rfl, letter, _⟩ := isDrive_iff.mp drive
    have colon := normal drive
    rw [isNormalDrive, letter, Bool.true_and, decide_eq_true_iff] at colon
    rw [colon]
    rfl
  · rfl

theorem push_eq {special file : Bool} {path : List Bytes} {s : Bytes} (segment : Segment special s)
    (front : file = true → path = [] → isDrive s = true → isNormalDrive s = true) (last : Bool) :
      push file path s last = path ++ [s] := by
  rw [push, segment.doubleDot, if_neg Bool.false_ne_true, segment.dot, if_neg Bool.false_ne_true]
  split
  · rename_i empty
    rw [Bool.and_eq_true, List.isEmpty_iff] at empty
    rw [normalDrive_eq (front empty.1 empty.2)]
  · rfl

theorem pushAll_eq {special file : Bool} {path segments : List Bytes} (all : ∀ s ∈ segments, Segment special s)
    (front : file = true → path = [] → NormalFront segments) : pushAll file path segments = path ++ segments := by
  induction segments generalizing path with
  | nil => rw [pushAll, List.append_nil]
  | cons s segments ih =>
    have first : ∀ last, push file path s last = path ++ [s] :=
      push_eq (all s List.mem_cons_self) fun isFile empty => front isFile empty s rfl
    cases segments with
    | nil => exact first true
    | cons t segments =>
      have rest : pushAll file (path ++ [s]) (t :: segments) = (path ++ [s]) ++ t :: segments := by
        refine ih (fun u member => all u (List.mem_cons_of_mem s member)) fun _ empty => ?_
        exact (List.append_ne_nil_of_right_ne_nil path (List.cons_ne_nil s []) empty).elim
      change pushAll file (push file path s false) (t :: segments) = _
      rw [first, rest, List.append_assoc]
      rfl

theorem readSegments_eq {special file : Bool} {segments : List Bytes} (nonempty : segments ≠ [])
    (all : ∀ s ∈ segments, Segment special s)
    (front : file = true → NormalFront segments) : readSegments special file [] ([byte '/'].intercalate segments) = segments := by
  have encoded : segments.map (encode pathSet) = segments := by
    conv_rhs => rw [← List.map_id segments]
    exact List.map_congr_left fun s member => encode_eq fun b inside => ((all s member).plain b inside).1
  rw [readSegments, splitOnP_slash nonempty fun s member b inside => ((all s member).plain b inside).2, encoded,
    pushAll_eq all fun isFile _ => front isFile]
  rfl

theorem intercalate_plain {special : Bool} {segments : List Bytes} (all : ∀ s ∈ segments, Segment special s) :
    ∀ b ∈ [byte '/'].intercalate segments, b = byte '/' ∨ pathSet b = false ∧ isSlash special b = false := by
  intro b member
  rcases Urlencoded.mem_intercalate member with separator | ⟨s, given, inside⟩
  · exact .inl separator
  · exact .inr ((all s given).plain b inside)

def afterPath (u : Url) : Bytes := queryText u.query ++ fragmentText u.fragment

theorem afterPath_front (u : Url) : ∀ b ∈ (afterPath u).head?, isEnd b = true := by
  unfold afterPath
  cases u.query with
  | some q =>
    rintro b ⟨⟩
    rfl
  | none =>
    cases u.fragment with
    | some f =>
      rintro b ⟨⟩
      rfl
    | none => nofun

theorem finish_written {host : HostParser} {u v : Url} (valid : Valid host u) (same : v.scheme = u.scheme) :
    finish v (afterPath u) = { v with query := u.query, fragment := u.fragment } := by
  have query : readQuery (isSpecial u.scheme) (afterPath u) = u.query := by
    unfold afterPath
    cases isQuery : u.query with
    | some q =>
      have plain := valid.query q isQuery
      have taken : (q ++ fragmentText u.fragment).takeWhile (· ≠ byte '#') = q := by
        refine (span_stop ?_ ?_).1
        · intro b member
          exact decide_eq_true (control_query b (plain b member)).2.2
        · cases u.fragment with
          | none => nofun
          | some f =>
            rintro b ⟨⟩
            rfl
      change readQuery _ (byte '?' :: (q ++ fragmentText u.fragment)) = _
      rw [readQuery, if_pos rfl, taken, encode_eq plain]
    | none =>
      cases u.fragment with
      | none => rfl
      | some f => rfl
  have fragment : readFragment (afterPath u) = u.fragment := by
    have hash : ∀ b ∈ queryText u.query, decide (b ≠ byte '#') = true := by
      cases isQuery : u.query with
      | none => exact List.forall_mem_nil _
      | some q =>
        intro b member
        rcases List.mem_cons.mp member with rfl | member
        · rfl
        · exact decide_eq_true (control_query b (valid.query q isQuery b member)).2.2
    unfold readFragment afterPath
    rw [List.dropWhile_append_of_pos hash]
    cases isFragment : u.fragment with
    | none => rfl
    | some f =>
      change some (encode fragmentSet f) = some f
      rw [encode_eq (valid.fragment f isFragment)]
  rw [finish, same, query, fragment]

theorem readPath_written {host : HostParser} {u v : Url} (valid : Valid host u) (same : v.scheme = u.scheme) {segments : List Bytes}
    (nonempty : segments ≠ []) (all : ∀ s ∈ segments, Segment (isSpecial u.scheme) s)
      (front : isFile u.scheme = true → NormalFront segments) :
    readPath v [] ([byte '/'].intercalate segments ++ afterPath u) =
      { v with path := .list segments, query := u.query, fragment := u.fragment } := by
  have inside : ∀ b ∈ [byte '/'].intercalate segments, (!isEnd b) = true := by
    intro b member
    rcases intercalate_plain all b member with rfl | ⟨plain, _⟩
    · rfl
    · rw [(control_path b plain).2.1]
      rfl
  obtain ⟨taken, dropped⟩ := span_stop inside fun b first => by rw [afterPath_front u b first]; rfl
  have read : readSegments (isSpecial v.scheme) (isFile v.scheme) [] ([byte '/'].intercalate segments) = segments := by
    rw [same, readSegments_eq nonempty all front]
  rw [readPath, taken, dropped, read]
  exact finish_written (v := { v with path := .list segments }) valid same

theorem startPath_written {host : HostParser} {u v : Url} (valid : Valid host u) (same : v.scheme = u.scheme) {segments : List Bytes}
    (nonempty : isSpecial u.scheme = true → segments ≠ []) (all : ∀ s ∈ segments, Segment (isSpecial u.scheme) s)
    (front : isFile u.scheme = true → NormalFront segments) :
    startPath v (segments.flatMap (byte '/' :: ·) ++ afterPath u) =
      { v with path := .list segments, query := u.query, fragment := u.fragment } := by
  by_cases empty : segments = []
  · subst empty
    have other : isSpecial u.scheme = false := Bool.eq_false_iff.mpr fun special => nonempty special rfl
    have done := finish_written (v := { v with path := .list [] }) valid same
    rw [List.flatMap_nil, List.nil_append, ← done]
    cases written : afterPath u with
    | nil => rw [startPath, same, other, if_neg Bool.false_ne_true]
    | cons c rest =>
      have ends : isEnd c = true := by
        refine afterPath_front u c ?_
        rw [written]
        rfl
      have slash : isSlash false c = false := by
        exact end_byte c ends
      rw [startPath, same, other, slash, if_neg Bool.false_ne_true, ends]
      rfl
  · rw [pathname_list empty, List.cons_append, startPath, isSlash_slash, if_pos rfl]
    exact readPath_written valid same empty all front

/-! ### The authority -/

theorem rspan_stop {α : Type*} {p : α → Bool} {s t : List α} (all : ∀ b ∈ t, p b = true)
    (stop : ∀ b ∈ s.getLast?, p b = false) :
    (s ++ t).rtakeWhile p = t ∧ (s ++ t).rdropWhile p = s := by
  obtain ⟨taken, dropped⟩ := span_stop (p := p) (s := t.reverse) (t := s.reverse)
    (fun b member => all b (List.mem_reverse.mp member)) (by rwa [List.head?_reverse])
  rw [List.rtakeWhile, List.rdropWhile, List.reverse_append, taken, dropped, List.reverse_reverse, List.reverse_reverse]
  exact ⟨rfl, rfl⟩

theorem splitPort_run {inside : Bool} {run : Bytes} (plain : ∀ b ∈ run, b ≠ byte '[' ∧ b ≠ byte ']' ∧
    (inside = false → b ≠ byte ':'))
    (rest : Bytes) : splitPort inside (run ++ rest) = (run ++ (splitPort inside rest).1, (splitPort inside rest).2) := by
  induction run with
  | nil => rfl
  | cons b run ih =>
    obtain ⟨opening, closing, colon⟩ := plain b List.mem_cons_self
    have within : (decide (b = byte ':') && !inside) = false := by
      cases inside with
      | true => rw [Bool.not_true, Bool.and_false]
      | false => rw [decide_eq_false (colon rfl), Bool.false_and]
    rw [List.cons_append, splitPort, within, if_neg Bool.false_ne_true, if_neg opening, if_neg closing,
      ih fun c member => plain c (List.mem_cons_of_mem b member)]
    rfl

theorem splitPort_port (port : Option ℕ) : splitPort false (portText port) = ([], port.map fun n => utf8 (natText n)) := by
  cases port <;> rfl

theorem splitPort_host {h : Bytes} (isHost : IsHost h) (port : Option ℕ) :
    splitPort false (h ++ portText port) = (h, port.map fun n => utf8 (natText n)) := by
  rcases isHost with ⟨_, plain⟩ | ⟨inner, rfl, plain⟩
  · rw [splitPort_run, splitPort_port, List.append_nil]
    intro b member
    obtain ⟨_, _, _, _, colon, opening, closing, _⟩ := host_byte b (plain b member)
    exact ⟨opening, closing, fun _ => colon⟩
  · have address : splitPort true (inner ++ byte ']' :: portText port) =
        (inner ++ [byte ']'], port.map fun n => utf8 (natText n)) := by
      rw [splitPort_run]
      · change (inner ++ byte ']' :: (splitPort false (portText port)).1, (splitPort false (portText port)).2) = _
        rw [splitPort_port]
      · intro b member
        obtain ⟨_, _, _, _, opening, closing⟩ := address_byte b (plain b member)
        exact ⟨opening, closing, nofun⟩
    rw [List.cons_append, List.append_assoc, List.singleton_append]
    change (byte '[' :: (splitPort true (inner ++ byte ']' :: portText port)).1,
      (splitPort true (inner ++ byte ']' :: portText port)).2) = _
    rw [address]

theorem port_digits (n : ℕ) : ∀ b ∈ utf8 (natText n), isDigit b = true := by
  have small : ∀ u ∈ natText n, 48 ≤ u.toNat ∧ u.toNat ≤ 57 := fun u member => isDigit_range (natText_digits n u member)
  rw [utf8_small fun u member => lt_of_le_of_lt (small u member).2 (by decide)]
  intro b member
  obtain ⟨u, digit, rfl⟩ := List.mem_map.mp member
  obtain ⟨low, high⟩ := small u digit
  rw [isDigit, Bool.and_eq_true, decide_eq_true_iff, decide_eq_true_iff, UInt8.le_iff_toNat_le, UInt8.le_iff_toNat_le,
    UInt8.toNat_ofNat', Nat.mod_eq_of_lt (by omega)]
  exact ⟨low, high⟩

theorem readPort_written {scheme : Bytes} {n : ℕ} (small : n ≤ 65535) (other : specialPort scheme ≠ some (some n)) :
    readPort scheme (utf8 (natText n)) = some (some n) := by
  have low : ∀ u ∈ natText n, u.toNat < 0x80 := fun u member =>
    lt_of_le_of_lt (isDigit_range (natText_digits n u member)).2 (by decide)
  have nonempty : utf8 (natText n) ≠ [] := by
    rw [utf8_small low, ne_eq, List.map_eq_nil_iff]
    exact natText_ne_nil n
  rw [readPort, if_pos (List.all_eq_true.mpr (port_digits n)), if_neg nonempty]
  dsimp only
  rw [latin1_utf8 low, natOf_natText, if_neg (Nat.not_lt.mpr small), if_neg other]

/-- What stands before the sign `@`. -/
def userinfo (u : Url) : Bytes := u.username ++ if u.password = [] then [] else byte ':' :: u.password

theorem userinfo_read {u : Url} (plain : ∀ b ∈ u.username, userinfoSet b = false) :
    (userinfo u).takeWhile (· ≠ byte ':') = u.username ∧ ((userinfo u).dropWhile (· ≠ byte ':')).tail = u.password := by
  obtain ⟨taken, dropped⟩ := span_stop (p := (· ≠ byte ':')) (s := u.username)
    (t := if u.password = [] then [] else byte ':' :: u.password)
    (fun b member => decide_eq_true (control_userinfo b (plain b member)).2.2.2.2) (by
      split
      · nofun
      · rintro b ⟨⟩
        rfl)
  refine ⟨taken, ?_⟩
  rw [userinfo, dropped]
  split
  · rename_i none
    rw [none]
    rfl
  · rfl

theorem credentials_read {u : Url} {rest : Bytes} (plain : ∀ b ∈ rest, b ≠ byte '@') :
    (credentials u ++ rest).rtakeWhile (· ≠ byte '@') = rest ∧
      ((credentials u ++ rest).rdropWhile (· ≠ byte '@')).dropLast = userinfo u := by
  have others : ∀ b ∈ rest, decide (b ≠ byte '@') = true := fun b member => decide_eq_true (plain b member)
  obtain ⟨taken, dropped⟩ := rspan_stop (p := (· ≠ byte '@')) (s := credentials u) others (by
    unfold credentials
    split
    · nofun
    · rw [List.getLast?_concat]
      rintro b ⟨⟩
      rfl)
  refine ⟨taken, ?_⟩
  rw [dropped, credentials]
  split
  · rename_i none
    rw [Bool.and_eq_true, decide_eq_true_iff, decide_eq_true_iff] at none
    rw [userinfo, none.1, none.2]
    rfl
  · exact List.dropLast_concat

theorem credentials_inside {u : Url} (username : ∀ b ∈ u.username, userinfoSet b = false)
    (password : ∀ b ∈ u.password, userinfoSet b = false) :
    ∀ b ∈ credentials u, controlSet b = false ∧ isEnd b = false ∧ isSlash true b = false := by
  have of : ∀ b, userinfoSet b = false → controlSet b = false ∧ isEnd b = false ∧ isSlash true b = false := by
    intro b plain
    obtain ⟨printable, ends, slash, _⟩ := control_userinfo b plain
    exact ⟨printable, ends, slash⟩
  intro b member
  unfold credentials at member
  split at member
  · cases member
  · rcases List.mem_append.mp member with member | member
    · rcases List.mem_append.mp member with member | member
      · exact of b (username b member)
      · split at member
        · cases member
        · rcases List.mem_cons.mp member with rfl | member
          · decide
          · exact of b (password b member)
    · obtain rfl := List.mem_singleton.mp member
      decide

theorem port_inside (port : Option ℕ) :
    ∀ b ∈ portText port, controlSet b = false ∧ isEnd b = false ∧ isSlash true b = false ∧ b ≠ byte '@' := by
  cases port with
  | none => exact List.forall_mem_nil _
  | some n =>
    intro b member
    rcases List.mem_cons.mp member with rfl | member
    · decide
    · exact digit_byte b (port_digits n b member)

/-- A host with its credentials and its port, or an empty host without. -/
structure Authority (host : HostParser) (u : Url) (h : Bytes) : Prop where
  isHost : u.host = some h
  read : IsHost h ∧ host (isSpecial u.scheme) h = some h ∨
    h = [] ∧ isSpecial u.scheme = false ∧ u.username = [] ∧ u.password = [] ∧ u.port = none
  port : ∀ n, u.port = some n → n ≤ 65535 ∧ specialPort u.scheme ≠ some (some n)

theorem Authority.inside {host : HostParser} {u : Url} {h : Bytes} (authority : Authority host u h) :
    ∀ b ∈ h ++ portText u.port, controlSet b = false ∧ isEnd b = false ∧ isSlash true b = false ∧ b ≠ byte '@' := by
  intro b member
  rcases List.mem_append.mp member with member | member
  · rcases authority.read with ⟨isHost, _⟩ | ⟨rfl, _⟩
    · exact host_inside isHost b member
    · cases member
  · exact port_inside u.port b member

theorem Authority.split {host : HostParser} {u : Url} {h : Bytes} (authority : Authority host u h) :
    splitPort false (h ++ portText u.port) = (h, u.port.map fun n => utf8 (natText n)) := by
  rcases authority.read with ⟨isHost, _⟩ | ⟨rfl, _, _, _, none⟩
  · exact splitPort_host isHost u.port
  · rw [none]
    rfl

theorem Authority.readHost {host : HostParser} {u : Url} {h : Bytes} (authority : Authority host u h) :
    Url.readHost host u.scheme h = some h := by
  rcases authority.read with ⟨isHost, read⟩ | ⟨rfl, special, _⟩
  · rw [Url.readHost, if_neg (host_ne_nil isHost), read]
  · rw [Url.readHost, if_pos rfl, special]
    rfl

theorem Authority.readPort {host : HostParser} {u : Url} {h : Bytes} (authority : Authority host u h) :
    (u.port.map fun n => utf8 (natText n)).elim (some none) (Url.readPort u.scheme) = some u.port := by
  cases port : u.port with
  | none => rfl
  | some n =>
    obtain ⟨small, other⟩ := authority.port n port
    exact readPort_written small other

/-- What stands where the path starts does not belong to the authority. -/
theorem path_front (special : Bool) (segments : List Bytes) (u : Url) :
    ∀ b ∈ (segments.flatMap (byte '/' :: ·) ++ afterPath u).head?, (!(isSlash special b || isEnd b)) = false := by
  cases segments with
  | nil =>
    intro b first
    rw [afterPath_front u b first, Bool.or_true]
    rfl
  | cons s segments =>
    rintro b ⟨⟩
    rw [isSlash_slash]
    rfl

theorem readAuthority_written {host : HostParser} {u : Url} {h : Bytes} (valid : Valid host u) (authority : Authority host u h)
    (file : isFile u.scheme = false) {segments : List Bytes} (path : u.path = .list segments)
    (nonempty : isSpecial u.scheme = true → segments ≠ []) (all : ∀ s ∈ segments, Segment (isSpecial u.scheme) s) :
    readAuthority host u.scheme (credentials u ++ (h ++ portText u.port) ++
      (segments.flatMap (byte '/' :: ·) ++ afterPath u)) = some u := by
  have inside : ∀ b ∈ credentials u ++ (h ++ portText u.port), (!(isSlash (isSpecial u.scheme) b || isEnd b)) = true := by
    intro b member
    have bytes : isEnd b = false ∧ isSlash true b = false := by
      rcases List.mem_append.mp member with member | member
      · exact (credentials_inside valid.username valid.password b member).2
      · obtain ⟨_, ends, slash, _⟩ := authority.inside b member
        exact ⟨ends, slash⟩
    rw [bytes.1, isSlash_false bytes.2]
    rfl
  obtain ⟨taken, dropped⟩ := span_stop inside (path_front (isSpecial u.scheme) segments u)
  obtain ⟨rtaken, rdropped⟩ := credentials_read (u := u) fun b member => (authority.inside b member).2.2.2
  obtain ⟨username, password⟩ := userinfo_read valid.username
  have started := startPath_written (v := { u with path := .list [], query := none, fragment := none }) valid rfl nonempty all
    fun isFile => by cases file.symm.trans isFile
  have given : (decide (h = []) && ((credentials u ++ (h ++ portText u.port)).contains (byte '@') ||
      (u.port.map fun n => utf8 (natText n)).isSome)) = false := by
    rcases authority.read with ⟨isHost, _⟩ | ⟨rfl, _, noUser, noPassword, noPort⟩
    · rw [decide_eq_false (host_ne_nil isHost), Bool.false_and]
    · rw [noPort, credentials, noUser, noPassword]
      rfl
  unfold readAuthority
  dsimp only
  rw [taken, dropped, rtaken, rdropped, authority.split]
  dsimp only
  rw [given, if_neg Bool.false_ne_true, authority.readHost, Option.bind_some, authority.readPort, Option.map_some, username, password,
    encode_eq valid.username, encode_eq valid.password, ← authority.isHost]
  exact congrArg some (started.trans (by rw [← path]))

/-! ### The whole URL -/

theorem server_front {host : HostParser} {u : Url} {h : Bytes} (valid : Valid host u) (authority : Authority host u h)
    (isHost : IsHost h) (rest : Bytes) :
    ∀ b ∈ (credentials u ++ (h ++ portText u.port) ++ rest).head?, isSlash true b = false := by
  obtain ⟨c, more, same⟩ := List.exists_cons_of_ne_nil
    (List.append_ne_nil_of_right_ne_nil (credentials u) (List.append_ne_nil_of_left_ne_nil (host_ne_nil isHost) (portText u.port)))
  have member : c ∈ credentials u ++ (h ++ portText u.port) := by
    rw [same]
    exact List.mem_cons_self
  rw [same]
  rintro b ⟨⟩
  rcases List.mem_append.mp member with member | member
  · exact (credentials_inside valid.username valid.password c member).2.2
  · exact (authority.inside c member).2.2.1

theorem no_credentials_written {u : Url} (username : u.username = []) (password : u.password = []) : credentials u = [] := by
  rw [credentials, username, password]
  rfl

theorem bare_eq {u : Url} (username : u.username = []) (password : u.password = []) (port : u.port = none) :
    { bare u.scheme u.host with path := u.path, query := u.query, fragment := u.fragment } = u := by
  unfold bare
  rw [← port]
  cases u
  subst username password
  rfl

theorem readFile_written {host : HostParser} (lawful : LawfulHost host) {u : Url} (valid : Valid host u) {h : Bytes}
    {segments : List Bytes} (file : isFile u.scheme = true) (isHost : u.host = some h)
    (parsed : h = [] ∨ host true h = some h ∧ h ≠ ascii "localhost") (username : u.username = []) (password : u.password = [])
    (port : u.port = none) (path : u.path = .list segments) (nonempty : segments ≠ []) (all : ∀ s ∈ segments, Segment true s)
    (front : NormalFront segments) :
    readFile host u.scheme (byte '/' :: byte '/' :: (h ++ (segments.flatMap (byte '/' :: ·) ++ afterPath u))) = some u := by
  have special := isSpecial_file file
  have inside : ∀ b ∈ h, (!(isSlash true b || isEnd b)) = true := by
    rcases parsed with rfl | ⟨parsed, _⟩
    · exact List.forall_mem_nil _
    · intro b member
      obtain ⟨_, ends, slash, _⟩ := host_inside (lawful.isHost parsed) b member
      rw [ends, slash]
      rfl
  obtain ⟨taken, dropped⟩ := span_stop inside (path_front true segments u)
  have started : startPath (bare u.scheme (some h)) (segments.flatMap (byte '/' :: ·) ++ afterPath u) = u := by
    rw [startPath_written (v := bare u.scheme (some h)) valid rfl (fun _ => nonempty) (special ▸ all) fun _ =>
      front, ← isHost, ← path]
    exact bare_eq username password port
  change readFileHost host u.scheme _ = _
  unfold readFileHost
  dsimp only
  rw [taken, dropped]
  rcases parsed with rfl | ⟨parsed, other⟩
  · rw [if_neg (by decide), if_pos rfl, started]
  · rw [host_not_drive (lawful.isHost parsed), if_neg Bool.false_ne_true, if_neg (host_ne_nil (lawful.isHost parsed)), parsed,
      Option.map_some, if_neg other, started]

theorem readOther_slash (host : HostParser) (scheme : Bytes) {rest : Bytes} (front : ∀ b ∈ rest.head?, b ≠ byte '/') :
    readOther host scheme (byte '/' :: rest) = some (readPath (bare scheme none) [] rest) := by
  cases rest with
  | nil => rfl
  | cons d more =>
    rw [readOther, if_pos rfl, if_neg (front d rfl)]

theorem readPath_dot (u : Url) (rest : Bytes) : readPath u [] (byte '.' :: byte '/' :: rest) = readPath u [] rest := by
  have pieces : (byte '.' :: byte '/' :: rest.takeWhile fun b => !isEnd b).splitOnP (isSlash (isSpecial u.scheme)) =
      [byte '.'] :: (rest.takeWhile fun b => !isEnd b).splitOnP (isSlash (isSpecial u.scheme)) := by
    have plain : ∀ b ∈ [byte '.'], isSlash (isSpecial u.scheme) b = false := by
      intro b member
      obtain rfl := List.mem_singleton.mp member
      exact isSlash_false rfl
    exact List.splitOnP_append_cons_of_forall_mem plain _ (isSlash_slash _) _
  have same : readSegments (isSpecial u.scheme) (isFile u.scheme) [] (byte '.' :: byte '/' :: rest.takeWhile fun b => !isEnd b) =
      readSegments (isSpecial u.scheme) (isFile u.scheme) [] (rest.takeWhile fun b => !isEnd b) := by
    obtain ⟨first, others, split⟩ := List.exists_cons_of_ne_nil
      (List.splitOnP_ne_nil (isSlash (isSpecial u.scheme)) (rest.takeWhile fun b => !isEnd b))
    rw [readSegments, pieces, readSegments, split]
    rfl
  change finish { u with path := .list (readSegments _ _ [] (byte '.' :: byte '/' :: rest.takeWhile fun b => !isEnd b)) }
    (rest.dropWhile fun b => !isEnd b) = _
  rw [same]
  rfl

/-- A path that starts with an empty segment is written behind `/.`. -/
theorem readOther_hostless {host : HostParser} {u : Url} (valid : Valid host u) {segments : List Bytes}
    (special : isSpecial u.scheme = false) (isHost : u.host = none) (username : u.username = []) (password : u.password = [])
    (port : u.port = none) (path : u.path = .list segments) (nonempty : segments ≠ []) (all : ∀ s ∈ segments, Segment false s) :
    readOther host u.scheme (authority u ++ pathname u ++ afterPath u) = some u := by
  have file : isFile u.scheme = true → NormalFront segments := fun file => by cases special.symm.trans (isSpecial_file file)
  have done : readPath (bare u.scheme none) [] ([byte '/'].intercalate segments ++ afterPath u) = u := by
    rw [readPath_written (v := bare u.scheme none) valid rfl nonempty (special ▸ all) file, ← isHost, ← path]
    exact bare_eq username password port
  have plain : ∀ front : Bytes, authority u = front → authority u ++ pathname u ++ afterPath u =
      front ++ byte '/' :: ([byte '/'].intercalate segments ++ afterPath u) := by
    rintro _ rfl
    rw [pathname, path]
    dsimp only
    rw [pathname_list nonempty, List.append_assoc, List.cons_append]
  match segments with
  | [] => exact (nonempty rfl).elim
  | [] :: t :: rest =>
    rw [plain (ascii "/.") (by rw [authority, isHost, path])]
    change readOther host u.scheme (byte '/' :: byte '.' :: byte '/' :: _) = _
    rw [readOther_slash host u.scheme (by rintro b ⟨⟩; decide), readPath_dot, done]
  | [[]] =>
    rw [plain [] (by rw [authority, isHost, path]), List.nil_append, readOther_slash, done]
    rintro b first rfl
    cases afterPath_front u (byte '/') first
  | (c :: s) :: rest =>
    rw [plain [] (by rw [authority, isHost, path]), List.nil_append, readOther_slash, done]
    have head : ([byte '/'].intercalate ((c :: s) :: rest) ++ afterPath u).head? = some c := by
      cases rest with
      | nil => rfl
      | cons t rest => rfl
    rw [head]
    rintro b ⟨⟩ rfl
    cases ((all (byte '/' :: s) List.mem_cons_self).plain (byte '/') List.mem_cons_self).2

theorem readOther_text {host : HostParser} {u : Url} (valid : Valid host u) {text q : Bytes}
    (isHost : u.host = none) (username : u.username = []) (password : u.password = []) (port : u.port = none)
    (path : u.path = .text text) (plain : ∀ b ∈ text, controlSet b = false ∧ isEnd b = false)
      (front : text.head? ≠ some (byte '/'))
    (query : u.query = some q) : readOther host u.scheme (authority u ++ pathname u ++ afterPath u) = some u := by
  have written : authority u ++ pathname u ++ afterPath u = text ++ afterPath u := by
    rw [authority, isHost, pathname, path]
    rfl
  have inside : ∀ b ∈ text, (!isEnd b) = true := by
    intro b member
    rw [(plain b member).2]
    rfl
  obtain ⟨taken, dropped⟩ := span_stop inside fun b first => by rw [afterPath_front u b first]; rfl
  have done : finish { bare u.scheme none with path := .text text } (afterPath u) = u := by
    rw [finish_written (v := { bare u.scheme none with path := .text text }) valid rfl, ← isHost, ← path]
    exact bare_eq username password port
  have slash : (text ++ afterPath u).head? ≠ some (byte '/') := by
    cases text with
    | nil =>
      intro first
      cases afterPath_front u (byte '/') first
    | cons c text => exact front
  have nonempty : text ++ afterPath u ≠ [] := by
    refine List.append_ne_nil_of_right_ne_nil text ?_
    rw [afterPath, query]
    exact List.cons_ne_nil _ _
  obtain ⟨c, rest, same⟩ := List.exists_cons_of_ne_nil nonempty
  rw [written, same]
  rw [same] at slash taken dropped
  unfold readOther
  dsimp only
  rw [if_neg fun slash' => slash (by rw [slash']; rfl), readOther.readText, taken, dropped,
    encode_eq fun b member => (plain b member).1, done]

theorem readAbsolute_written {host : HostParser} (lawful : LawfulHost host) (base : Url) {u : Url} (valid : Valid host u) {q : Bytes}
    (query : u.query = some q) : readAbsolute host base u.scheme (authority u ++ pathname u ++ afterPath u) = some u := by
  unfold readAbsolute
  cases valid.shape with
  | server h segments special file isHost parsed port path nonempty all =>
    have whole : Authority host u h := ⟨isHost, .inl ⟨lawful.isHost parsed, special ▸ parsed⟩, port⟩
    have text : authority u ++ pathname u ++ afterPath u =
        ascii "//" ++ (credentials u ++ (h ++ portText u.port) ++ (segments.flatMap (byte '/' :: ·) ++ afterPath u)) := by
      simp only [authority, isHost, pathname, path, List.append_assoc]
    obtain ⟨_, dropped⟩ := span_stop (p := isSlash true) (s := ascii "//") slashes_all
      (server_front valid whole (lawful.isHost parsed) (segments.flatMap (byte '/' :: ·) ++ afterPath u))
    have slashes : ∀ rest : Bytes, (ascii "//").isPrefixOf (ascii "//" ++ rest) = true := fun _ => rfl
    rw [file, special, if_neg Bool.false_ne_true, if_pos rfl, text, slashes, Bool.not_true, Bool.and_false, if_neg Bool.false_ne_true,
      dropped]
    exact readAuthority_written valid whole file path (fun _ => nonempty) (special ▸ all)
  | file h segments file isHost parsed username password port path nonempty all front =>
    have text : authority u ++ pathname u ++ afterPath u =
        byte '/' :: byte '/' :: (h ++ (segments.flatMap (byte '/' :: ·) ++ afterPath u)) := by
      simp only [authority, isHost, pathname, path, port, no_credentials_written username password, portText, List.append_nil]
      rw [List.append_assoc, List.append_assoc]
      rfl
    rw [file, if_pos rfl, text]
    exact readFile_written lawful valid file isHost parsed username password port path nonempty all front
  | other h segments special isHost parsed port path all =>
    have file := isFile_other special
    have whole : Authority host u h := by
      refine ⟨isHost, ?_, fun n same => ⟨port n same, ?_⟩⟩
      · rcases parsed with ⟨empty, username, password, port⟩ | parsed
        · exact .inr ⟨empty, special, username, password, port⟩
        · exact .inl ⟨lawful.isHost parsed, special ▸ parsed⟩
      · rw [Option.isNone_iff_eq_none.mp (Option.isSome_eq_false_iff.mp special)]
        nofun
    have text : authority u ++ pathname u ++ afterPath u = byte '/' :: byte '/' ::
        (credentials u ++ (h ++ portText u.port) ++ (segments.flatMap (byte '/' :: ·) ++ afterPath u)) := by
      simp only [authority, isHost, pathname, path, List.append_assoc]
      rfl
    rw [file, special, if_neg Bool.false_ne_true, if_neg Bool.false_ne_true, text]
    exact readAuthority_written valid whole file path (fun isSpecial => by cases special.symm.trans isSpecial) (special ▸ all)
  | hostless segments special isHost username password port path nonempty all =>
    rw [isFile_other special, special, if_neg Bool.false_ne_true, if_neg Bool.false_ne_true]
    exact readOther_hostless valid special isHost username password port path nonempty all
  | text text special isHost username password port path plain front =>
    rw [isFile_other special, special, if_neg Bool.false_ne_true, if_neg Bool.false_ne_true]
    exact readOther_text valid isHost username password port path plain front query

theorem afterPath_plain {host : HostParser} {u : Url} (valid : Valid host u) :
    ∀ b ∈ afterPath u, controlSet b = false ∧ isTrimmed b = false := by
  intro b member
  rcases List.mem_append.mp member with member | member
  · cases query : u.query with
    | none =>
      rw [query] at member
      cases member
    | some q =>
      rw [query] at member
      rcases List.mem_cons.mp member with rfl | member
      · decide
      · obtain ⟨printable, trimmed, _⟩ := control_query b (valid.query q query b member)
        exact ⟨printable, trimmed⟩
  · cases fragment : u.fragment with
    | none =>
      rw [fragment] at member
      cases member
    | some f =>
      rw [fragment] at member
      rcases List.mem_cons.mp member with rfl | member
      · decide
      · exact control_fragment b (valid.fragment f fragment b member)

theorem segments_printable {special : Bool} {segments : List Bytes} (all : ∀ s ∈ segments, Segment special s) :
    Printable (segments.flatMap (byte '/' :: ·)) := by
  intro b member
  obtain ⟨s, given, member⟩ := List.mem_flatMap.mp member
  rcases List.mem_cons.mp member with rfl | member
  · decide
  · exact (control_path b ((all s given).plain b member).1).1

theorem authority_printable {host : HostParser} (lawful : LawfulHost host) {u : Url} (valid : Valid host u) :
    Printable (authority u ++ pathname u) := by
  have server : ∀ h, u.host = some h → Printable h → Printable (authority u) := by
    intro h isHost printable
    have port : Printable (portText u.port) := fun b member => (port_inside u.port b member).1
    have credentials : Printable (credentials u) := fun b member => (credentials_inside valid.username valid.password b member).1
    rw [authority, isHost]
    exact printable_append (printable_append (printable_append printable_slashes credentials) printable) port
  have parsed : ∀ {special : Bool} {h : Bytes}, host special h = some h → Printable h :=
    fun read b member => (host_inside (lawful.isHost read) b member).1
  have hostless : u.host = none → Printable (authority u) := by
    intro isHost
    unfold authority
    split
    · rename_i found
      cases isHost.symm.trans found
    · exact printable_dot
    · exact List.forall_mem_nil _
  have path : ∀ {special : Bool} {segments : List Bytes}, u.path = .list segments → (∀ s ∈ segments, Segment special s) →
      Printable (pathname u) := by
    intro special segments path all
    rw [pathname, path]
    exact segments_printable all
  cases valid.shape with
  | server h segments _ _ isHost read _ isPath _ all => exact printable_append (server h isHost (parsed read)) (path isPath all)
  | file h segments _ isHost read _ _ _ isPath _ all _ =>
    refine printable_append (server h isHost ?_) (path isPath all)
    rcases read with rfl | ⟨read, _⟩
    · exact List.forall_mem_nil _
    · exact parsed read
  | other h segments _ isHost read _ isPath all =>
    refine printable_append (server h isHost ?_) (path isPath all)
    rcases read with ⟨rfl, _⟩ | read
    · exact List.forall_mem_nil _
    · exact parsed read
  | hostless segments _ isHost _ _ _ isPath _ all => exact printable_append (hostless isHost) (path isPath all)
  | text text _ isHost _ _ _ isPath plain _ =>
    refine printable_append (hostless isHost) ?_
    rw [pathname, isPath]
    exact fun b member => (plain b member).1

theorem href_eq (u : Url) : href u = u.scheme ++ byte ':' :: (authority u ++ pathname u ++ afterPath u) := by
  rw [href, afterPath, List.append_assoc (authority u ++ pathname u)]

theorem href_printable {host : HostParser} (lawful : LawfulHost host) {u : Url} (valid : Valid host u) : Printable (href u) := by
  obtain ⟨c, rest, scheme, first, others⟩ := valid.scheme
  rw [href_eq]
  refine printable_append ?_ (printable_cons (by decide)
    (printable_append (authority_printable lawful valid) fun b member => (afterPath_plain valid b member).1))
  rw [scheme]
  exact printable_cons (scheme_byte c (letter_byte c (lower_byte c first).1).1).1 fun b member => (scheme_byte b (others b member).1).1

theorem parse_href {host : HostParser} (lawful : LawfulHost host) (base : Url) {u : Url} (valid : Valid host u) {q : Bytes}
    (query : u.query = some q) : parse host base (href u) = some u := by
  have front : ∀ b ∈ (href u).head?, isTrimmed b = false := by
    obtain ⟨c, rest, scheme, first, _⟩ := valid.scheme
    rw [href_eq, scheme]
    rintro b ⟨⟩
    exact (scheme_byte c (letter_byte c (lower_byte c first).1).1).2.1
  have back : ∀ b ∈ (href u).getLast?, isTrimmed b = false := by
    have nonempty : afterPath u ≠ [] := by
      rw [afterPath, query]
      exact List.cons_ne_nil _ _
    rw [href_eq, ← List.cons_append, ← List.append_assoc, List.getLast?_append_of_ne_nil _ nonempty]
    exact fun b last => (afterPath_plain valid b (List.mem_of_mem_getLast? last)).2
  rw [parse, clean_eq (href_printable lawful valid) front back, href_eq, schemeOf_eq valid.scheme]
  exact readAbsolute_written lawful base valid query

end Url
