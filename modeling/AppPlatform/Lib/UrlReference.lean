import AppPlatform.Lib.UrlRoundTrip

/-!
# References that start with a slash

Against a base of the scheme `http` or `https`, the serialized path and query of a URL are read back as its path and its query, and
all else is the base's. A path that starts with two slashes is read as an authority instead, and what is left of it is a shorter path.
-/

namespace Url
open Js Percent

theorem clean_slash (rest : Bytes) : ∃ more, clean (byte '/' :: rest) = byte '/' :: more := by
  have first : (byte '/' :: rest).dropWhile isTrimmed = byte '/' :: rest := rfl
  have kept : (byte '/' :: rest).rdropWhile isTrimmed ≠ [] := by
    rw [ne_eq, List.rdropWhile_eq_nil_iff]
    intro all
    cases all (byte '/') List.mem_cons_self
  obtain ⟨c, more, same⟩ := List.exists_cons_of_ne_nil kept
  obtain ⟨dropped, whole⟩ := List.rdropWhile_prefix isTrimmed (l := byte '/' :: rest)
  rw [same, List.cons_append] at whole
  obtain ⟨rfl, _⟩ := List.cons.inj whole
  refine ⟨more.filter fun b => !isDropped b, ?_⟩
  rw [clean, first, same]
  rfl

theorem parse_slash (host : HostParser) (base : Url) {input more : Bytes} (cleaned : clean input = byte '/' :: more) :
    parse host base input = readRelative host base (byte '/' :: more) := by
  rw [parse, cleaned]
  rfl

theorem startPath_scheme (u : Url) (input : Bytes) : (startPath u input).scheme = u.scheme := by
  cases input with
  | nil =>
    rw [startPath]
    split <;> rfl
  | cons c input =>
    rw [startPath]
    split
    · rfl
    · split <;> rfl

theorem parse_slash_base {host : HostParser} (lawful : LawfulHost host) {base : Url} (is : Base host base) {rest : Bytes} {u : Url}
    (read : parse host base (byte '/' :: rest) = some u) : Base host u ∧ u.scheme = base.scheme := by
  have valid := valid_parse lawful is read
  have same : u.scheme = base.scheme := by
    obtain ⟨more, cleaned⟩ := clean_slash rest
    rw [parse_slash host base cleaned] at read
    unfold readRelative at read
    dsimp only at read
    rw [if_pos (show isSlash true (byte '/') = true from rfl)] at read
    split at read
    · cases read
      rfl
    · split at read
      · unfold readAuthority at read
        dsimp only at read
        split at read
        · cases read
        · obtain ⟨h, _, read⟩ := Option.bind_eq_some_iff.mp read
          obtain ⟨port, _, rfl⟩ := Option.map_eq_some_iff.mp read
          exact startPath_scheme _ _
      · cases read
        rfl
  exact ⟨⟨valid, same ▸ is.web⟩, same⟩

theorem printable_query {q : Bytes} (plain : ∀ b ∈ q, querySet true b = false) :
    ∀ b ∈ byte '?' :: q, controlSet b = false ∧ isTrimmed b = false := by
  intro b member
  rcases List.mem_cons.mp member with rfl | member
  · decide
  · obtain ⟨printable, trimmed, _⟩ := control_query b (plain b member)
    exact ⟨printable, trimmed⟩

theorem parse_path (host : HostParser) (base : Url) {segments : List Bytes} (nonempty : segments ≠ [])
    (all : ∀ s ∈ segments, Segment true s) {q : Bytes} (plain : ∀ b ∈ q, querySet true b = false) :
    parse host base (segments.flatMap (byte '/' :: ·) ++ byte '?' :: q) =
      readRelative host base (byte '/' :: ([byte '/'].intercalate segments ++ byte '?' :: q)) := by
  have query := printable_query plain
  have cleaned : clean (segments.flatMap (byte '/' :: ·) ++ byte '?' :: q) = segments.flatMap (byte '/' :: ·) ++ byte '?' :: q := by
    refine clean_eq (printable_append (segments_printable all) fun b member => (query b member).1) ?_ ?_
    · rw [pathname_list nonempty]
      rintro b ⟨⟩
      rfl
    · rw [List.getLast?_append_of_ne_nil _ (List.cons_ne_nil _ _)]
      exact fun b last => (query b (List.mem_of_mem_getLast? last)).2
  rw [pathname_list nonempty, List.cons_append] at cleaned ⊢
  exact parse_slash host base cleaned

theorem valid_at {host : HostParser} {base : Url} (is : Base host base) {segments : List Bytes} (nonempty : segments ≠ [])
    (all : ∀ s ∈ segments, Segment true s) {q : Bytes} (plain : ∀ b ∈ q, querySet true b = false) :
    Valid host { base with path := .list segments, query := some q, fragment := none } := by
  obtain ⟨special, file⟩ := is.special
  obtain ⟨h, _, isHost, parsed, port, _⟩ := is.server
  refine ⟨is.scheme, is.username, is.password, ?_, nofun, .server h segments special file isHost parsed port rfl nonempty all⟩
  rintro _ ⟨⟩
  rw [special]
  exact plain

theorem parse_at {host : HostParser} {base : Url} (is : Base host base) {segments : List Bytes} (nonempty : segments ≠ [])
    (all : ∀ s ∈ segments, Segment true s) {q : Bytes} (plain : ∀ b ∈ q, querySet true b = false)
    (single : (ascii "//").isPrefixOf (segments.flatMap (byte '/' :: ·)) = false) :
    parse host base (segments.flatMap (byte '/' :: ·) ++ byte '?' :: q) =
      some { base with path := .list segments, query := some q, fragment := none } := by
  obtain ⟨special, file⟩ := is.special
  have valid := valid_at is nonempty all plain
  have read := readPath_written (v := base) valid rfl nonempty (special ▸ all) fun isFile => by cases file.symm.trans isFile
  have after : afterPath { base with path := .list segments, query := some q, fragment := none } = byte '?' :: q := List.append_nil _
  rw [after] at read
  have front : ∀ b ∈ ([byte '/'].intercalate segments ++ byte '?' :: q).head?, isSlash true b = false := by
    rw [pathname_list nonempty] at single
    cases path : [byte '/'].intercalate segments with
    | nil =>
      rintro b ⟨⟩
      rfl
    | cons c more =>
      rintro b ⟨⟩
      rw [path] at single
      have member : c ∈ [byte '/'].intercalate segments := by
        rw [path]
        exact List.mem_cons_self
      rcases intercalate_plain all c member with rfl | ⟨_, slash⟩
      · cases single
      · exact slash
  rw [parse_path host base nonempty all plain]
  obtain ⟨d, more, same⟩ := List.exists_cons_of_ne_nil
    (List.append_ne_nil_of_right_ne_nil ([byte '/'].intercalate segments) (List.cons_ne_nil (byte '?') q))
  rw [same] at read front ⊢
  rw [readRelative, if_pos (show isSlash true (byte '/') = true from rfl), front d rfl, if_neg Bool.false_ne_true, read]

/-! ### Two slashes -/

theorem length_splitOnP {α : Type*} (p : α → Bool) (xs : List α) : (xs.splitOnP p).length = xs.countP p + 1 := by
  induction xs with
  | nil => rfl
  | cons x xs ih =>
    rw [List.splitOnP_cons_eq_if_modifyHead, List.countP_cons]
    split
    · rw [List.length_cons, ih]
    · rw [List.length_modifyHead, ih]

theorem length_push (file : Bool) (path : List Bytes) (s : Bytes) (last : Bool) :
    (push file path s last).length ≤ path.length + 1 := by
  have shorter : (shorten file path).length ≤ path.length := by
    match path with
    | [] => exact le_rfl
    | [segment] =>
      rw [shorten]
      split
      · exact le_rfl
      · exact Nat.zero_le _
    | _ :: _ :: _ => exact (List.dropLast_sublist _).length_le
  unfold push
  split
  · split
    · rw [List.length_append]
      exact Nat.add_le_add_right shorter 1
    · exact Nat.le_succ_of_le shorter
  · split
    · split
      · rw [List.length_append]
        exact le_rfl
      · exact Nat.le_succ _
    · rw [List.length_append]
      exact le_rfl

theorem length_pushAll (file : Bool) (path pieces : List Bytes) : (pushAll file path pieces).length ≤ path.length + pieces.length := by
  induction pieces generalizing path with
  | nil => exact le_rfl
  | cons s pieces ih =>
    cases pieces with
    | nil => exact length_push file path s true
    | cons t pieces =>
      have first := length_push file path s false
      have others := ih (push file path s false)
      change (pushAll file (push file path s false) (t :: pieces)).length ≤ _
      rw [List.length_cons] at others ⊢
      rw [List.length_cons]
      omega

theorem length_readSegments (special file : Bool) (input : Bytes) :
    (readSegments special file [] input).length ≤ input.countP (isSlash special) + 1 := by
  have bound := length_pushAll file [] ((input.splitOnP (isSlash special)).map (encode pathSet))
  rw [List.length_map, length_splitOnP, List.length_nil, Nat.zero_add] at bound
  exact bound

/-- After the authority of a special scheme, each segment of the path has its slash; without one there is an empty segment. -/
theorem length_startPath {u : Url} (special : isSpecial u.scheme = true) {input : Bytes}
    (front : ∀ b ∈ input.head?, isSlash true b || isEnd b) :
    (segments (startPath u input).path).length ≤ max 1 ((input.takeWhile fun b => !isEnd b).countP (isSlash true)) := by
  have read : ∀ rest : Bytes, (segments (readPath u [] rest).path).length ≤
    (rest.takeWhile fun b => !isEnd b).countP (isSlash true) + 1 := by
    intro rest
    have bound := length_readSegments (isSpecial u.scheme) (isFile u.scheme) (rest.takeWhile fun b => !isEnd b)
    rw [special] at bound
    change (readSegments (isSpecial u.scheme) _ [] _).length ≤ _
    rwa [special]
  cases input with
  | nil =>
    rw [startPath, special, if_pos rfl]
    exact read []
  | cons c rest =>
    have first := front c rfl
    rw [startPath, special]
    cases slash : isSlash true c with
    | true =>
      have inside : isEnd c = false := slash_byte c slash
      rw [if_pos rfl, List.takeWhile_cons, inside, if_pos (by rfl), List.countP_cons, slash, if_pos rfl]
      exact (read rest).trans (le_max_right _ _)
    | false =>
      rw [slash, Bool.false_or] at first
      have none : ((c :: rest).takeWhile fun b => !isEnd b) = [] := by
        rw [List.takeWhile_cons, first]
        rfl
      rw [if_neg Bool.false_ne_true, Bool.not_true, Bool.false_and, if_neg Bool.false_ne_true]
      have bound := read (c :: rest)
      rw [none] at bound ⊢
      exact bound

theorem takeWhile_dropWhile {α : Type*} {p e : α → Bool} (inside : ∀ x, p x = true → e x = true) (xs : List α) :
    (xs.dropWhile p).takeWhile e = (xs.takeWhile e).dropWhile p := by
  induction xs with
  | nil => rfl
  | cons x xs ih =>
    cases at' : p x with
    | true =>
      rw [List.dropWhile_cons_of_pos at', List.takeWhile_cons_of_pos (inside x at'), List.dropWhile_cons_of_pos at', ih]
    | false =>
      rw [List.dropWhile_cons_of_neg (by rw [at']; exact Bool.false_ne_true), List.takeWhile_cons]
      split
      · rw [List.dropWhile_cons_of_neg (by rw [at']; exact Bool.false_ne_true)]
      · rfl

theorem length_readAuthority {host : HostParser} {scheme : Bytes} (special : isSpecial scheme = true) {input : Bytes} {u : Url}
    (read : readAuthority host scheme input = some u) :
    (segments u.path).length ≤ max 1 ((input.takeWhile fun b => !isEnd b).countP (isSlash true)) := by
  unfold readAuthority at read
  dsimp only at read
  split at read
  · cases read
  · obtain ⟨h, _, read⟩ := Option.bind_eq_some_iff.mp read
    obtain ⟨port, _, rfl⟩ := Option.map_eq_some_iff.mp read
    have inside : ∀ b, (!(isSlash (isSpecial scheme) b || isEnd b)) = true → (!isEnd b) = true := by
      intro b plain
      rw [Bool.not_eq_true', Bool.or_eq_false_iff] at plain
      rw [plain.2]
      rfl
    have front : ∀ b ∈ (input.dropWhile fun b => !(isSlash (isSpecial scheme) b || isEnd b)).head?, isSlash true b || isEnd b := by
      intro b first
      have stopped := List.head?_dropWhile_not (fun b => !(isSlash (isSpecial scheme) b || isEnd b)) input
      rw [Option.mem_def.mp first, special] at stopped
      have stopped : (!(isSlash true b || isEnd b)) = false := stopped
      rwa [Bool.not_eq_eq_eq_not, Bool.not_false] at stopped
    refine (length_startPath special front).trans (max_le_max_left 1 ?_)
    rw [takeWhile_dropWhile inside]
    exact (List.dropWhile_sublist _).countP_le

theorem parse_network {host : HostParser} {base : Url} (is : Base host base) {segments : List Bytes} (nonempty : segments ≠ [])
    (all : ∀ s ∈ segments, Segment true s) {q : Bytes} (plain : ∀ b ∈ q, querySet true b = false)
    (double : (ascii "//").isPrefixOf (segments.flatMap (byte '/' :: ·)) = true) {u : Url}
    (read : parse host base (segments.flatMap (byte '/' :: ·) ++ byte '?' :: q) = some u) : u.path ≠ .list segments := by
  obtain ⟨t, rest, rfl⟩ : ∃ t rest, segments = [] :: t :: rest := by
    match segments with
    | [] => exact (nonempty rfl).elim
    | [[]] => cases double
    | [] :: t :: rest => exact ⟨t, rest, rfl⟩
    | (c :: s) :: rest =>
      have first : (byte '/' == c) = true := (Bool.and_eq_true_iff.mp (Bool.and_eq_true_iff.mp double).2).1
      obtain rfl := eq_of_beq first
      cases ((all (byte '/' :: s) List.mem_cons_self).plain (byte '/') List.mem_cons_self).2
  have others : ∀ s ∈ t :: rest, Segment true s := fun s member => all s (List.mem_cons_of_mem [] member)
  have inside : ∀ b ∈ [byte '/'].intercalate (t :: rest), (!isEnd b) = true := by
    intro b member
    rcases intercalate_plain others b member with rfl | ⟨other, _⟩
    · rfl
    · rw [(control_path b other).2.1]
      rfl
  have slashes : ([byte '/'].intercalate (t :: rest)).countP (isSlash true) + 1 = rest.length + 1 := by
    rw [← length_splitOnP, splitOnP_slash (List.cons_ne_nil t rest) fun s member b within => ((others s member).plain b within).2,
      List.length_cons]
  rw [parse_path host base nonempty all plain] at read
  change readAuthority host base.scheme (([byte '/'].intercalate (t :: rest) ++ byte '?' :: q).dropWhile (isSlash true)) = some u at read
  have bound := length_readAuthority is.special.1 read
  have ends : ∀ b, isSlash true b = true → (!isEnd b) = true := fun b slash => by rw [slash_byte b slash]; rfl
  rw [takeWhile_dropWhile ends, (span_stop inside (by rintro b ⟨⟩; rfl)).1] at bound
  have fewer := (List.dropWhile_sublist (isSlash true) (l := [byte '/'].intercalate (t :: rest))).countP_le (p := isSlash true)
  intro same
  rw [same] at bound
  change rest.length + 2 ≤ _ at bound
  omega

end Url
