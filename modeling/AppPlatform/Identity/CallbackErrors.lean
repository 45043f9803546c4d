import AppPlatform.Lib.Headers
import AppPlatform.Lib.UrlReference

/-!
# Callback error codes

`withCallbackErrorCodes`: a code that was recorded while a request was handled replaces the error parameter of its redirect. The
location is resolved against the URL of the request and written again, as a path and a query where it starts with a slash; that form
has no place for a fragment or for another server, and the answer loses what the location had of these.
-/

namespace CallbackErrors
open Js Percent

/-- What the store has for a request, as far as the response depends on it. -/
structure Slot where
  code : Option Text := none

structure Request where
  /-- What `request.url` is the serialization of. -/
  url : Url

structure Response where
  status : ℕ
  headers : Fetch.Headers
  body : Option Bytes
  deriving DecidableEq

/-- What the handler did for a request: the codes that `refuseCallbackWith` was called with, in order, and its response. -/
structure Handled where
  refused : List Text
  response : Response

/-- Outside of a request there is no slot. -/
def refuseCallbackWith (slot : Option Slot) (code : Text) : Option Slot := slot.map fun slot => { slot with code := some code }

/-- The store after `store.run({}, ...)`. -/
def Handled.slot (handled : Handled) : Option Slot := handled.refused.foldl refuseCallbackWith (some {})

def startsWithSlash (location : Text) : Bool := location.head? = some (unit '/')

def written (location : Text) (url : Url) : Bytes :=
  if startsWithSlash location then Url.pathname url ++ Url.search url else Url.href url

/-- `url.searchParams.set('error', code)` -/
def withError (url : Url) (code : Text) : Url := url.withParams (Urlencoded.set url.params (text "error") (toWellFormed code))

/-- `none` where `new URL` throws; a code or a location that is missing is falsy as the empty one is. -/
def withCallbackErrorCodes (host : HostParser) (handler : Request → Handled) (request : Request) : Option Response :=
  let handled := handler request
  let response := handled.response
  let code := (handled.slot.bind Slot.code).getD []
  let location := (response.headers.get (text "location")).getD []
  if code = [] || location = [] || response.status < 300 || 399 < response.status then some response
  else
    (Url.parse host request.url (utf8 location)).map fun url =>
      if !Urlencoded.has url.params (text "error") then response
      else
        { status := response.status
          headers := Fetch.Headers.set response.headers.entries (text "location") (latin1 (written location (withError url code)))
          body := none }

def target (host : HostParser) (base : Url) (response : Response) : Option Url :=
  if 300 ≤ response.status ∧ response.status ≤ 399 then
    (response.headers.get (text "location")).bind fun location => Url.parse host base (utf8 location)
  else none

def hasError (url : Url) : Bool := Urlencoded.has url.params (text "error")

/-- Two URLs that differ in the error parameter at most. -/
structure SameButError (u v : Url) : Prop where
  scheme : v.scheme = u.scheme
  username : v.username = u.username
  password : v.password = u.password
  host : v.host = u.host
  port : v.port = u.port
  path : v.path = u.path
  hash : v.hash = u.hash
  params : Urlencoded.others v.params (text "error") = Urlencoded.others u.params (text "error")

/-- Without a code, or without a redirect that has an error parameter, the response is answered as it is; and where it redirects to
a URL, the answer redirects to one that differs in the error parameter at most. -/
structure Kept (host : HostParser) (base : Url) (handled : Handled) (answer : Response) : Prop where
  unchanged : handled.refused = [] ∨
    (∀ u, target host base handled.response = some u → hasError u = false) → answer = handled.response
  target : ∀ u, target host base handled.response = some u → ∃ v, CallbackErrors.target host base answer =
    some v ∧ SameButError u v

theorem slot_code (handled : Handled) : handled.slot.bind Slot.code = handled.refused.getLast? := by
  unfold Handled.slot
  induction handled.refused using List.reverseRecOn with
  | nil => rfl
  | append_singleton codes code _ =>
    have slot : ∀ codes : List Text, (codes.foldl refuseCallbackWith (some {})).isSome := by
      intro codes
      induction codes using List.reverseRecOn with
      | nil => rfl
      | append_singleton codes code ih =>
        rw [List.foldl_append, List.foldl_cons, List.foldl_nil, refuseCallbackWith, Option.isSome_map, ih]
    obtain ⟨before, found⟩ := Option.isSome_iff_exists.mp (slot codes)
    rw [List.foldl_append, found, List.getLast?_concat]
    rfl

theorem query_withError (u : Url) (code : Text) :
    (withError u code).query = some (Urlencoded.serialize (Urlencoded.set u.params (text "error") (toWellFormed code))) := by
  rw [withError, Url.withParams, if_neg (Urlencoded.set_ne_nil _ _ _)]

theorem params_withError (u : Url) (code : Text) : (withError u code).params = Urlencoded.set u.params
    (text "error") (toWellFormed code) := by
  rw [Url.params, query_withError, Option.getD_some, Url.params]
  exact Urlencoded.parse_set (by decide) (isWellFormed_toWellFormed code)

/-- No byte of what is written is encoded in a query. -/
theorem serialize_plain (params : Urlencoded.Params) {special : Bool} :
    ∀ b ∈ Urlencoded.serialize params, Url.querySet special b = false := by
  have bytes : ∀ b : UInt8, Urlencoded.literal b = true → ∀ special, Url.querySet special b = false :=
    forall_byte (by decide +kernel)
  intro b member
  rcases Urlencoded.serialize_written params b member with (rfl | rfl | plain) | rfl | rfl
  · cases special <;> rfl
  · cases special <;> rfl
  · exact bytes b plain special
  · cases special <;> rfl
  · cases special <;> rfl

theorem valid_withError {host : HostParser} {u : Url} (valid : Url.Valid host u) (code : Text) : Url.Valid host (withError u code) where
  scheme := valid.scheme
  username := valid.username
  password := valid.password
  query q query := by
    rw [query_withError] at query
    cases query
    exact serialize_plain _
  fragment := valid.fragment
  shape := valid.shape.congr _ _

theorem search_withError (u : Url) (code : Text) :
    Url.search (withError u code) = byte '?' :: Urlencoded.serialize (Urlencoded.set u.params (text "error") (toWellFormed code)) := by
  rw [Url.search, query_withError, Option.getD_some, if_neg (Urlencoded.serialize_ne_nil (Urlencoded.set_ne_nil _ _ _))]
  rfl

/-! ### The answer -/

/-- A code was recorded, and the redirect has a location. -/
structure Redirects (handled : Handled) (code location : Text) : Prop where
  last : handled.refused.getLast? = some code
  coded : code ≠ []
  header : handled.response.headers.get (text "location") = some location
  located : location ≠ []
  status : 300 ≤ handled.response.status ∧ handled.response.status ≤ 399

theorem answer_unread {host : HostParser} {handler : Request → Handled} {request : Request}
    (never : ∀ code location, ¬ Redirects (handler request) code location) :
    withCallbackErrorCodes host handler request = some (handler request).response := by
  unfold withCallbackErrorCodes
  dsimp only
  rw [slot_code]
  refine if_pos ?_
  by_contra reads
  simp only [Bool.or_eq_true, decide_eq_true_eq, not_or, Nat.not_lt] at reads
  obtain ⟨⟨⟨coded, located⟩, low⟩, high⟩ := reads
  cases code : (handler request).refused.getLast? with
  | none =>
    rw [code] at coded
    exact coded rfl
  | some c =>
    cases location : (handler request).response.headers.get (text "location") with
    | none =>
      rw [location] at located
      exact located rfl
    | some l =>
      rw [code] at coded
      rw [location] at located
      exact never c l ⟨code, coded, location, located, low, high⟩

theorem answer_read {host : HostParser} {handler : Request → Handled} {request : Request} {code location : Text}
    (redirects : Redirects (handler request) code location) :
    withCallbackErrorCodes host handler request = (Url.parse host request.url (utf8 location)).map fun url =>
      if !hasError url then (handler request).response
      else
        { status := (handler request).response.status
          headers := Fetch.Headers.set (handler request).response.headers.entries (text "location")
            (latin1 (written location (withError url code)))
          body := none } := by
  obtain ⟨isCode, coded, isLocation, located, low, high⟩ := redirects
  unfold withCallbackErrorCodes
  dsimp only
  rw [slot_code, isCode, isLocation, Option.getD_some, Option.getD_some]
  refine if_neg ?_
  simp only [Bool.or_eq_true, decide_eq_true_eq, not_or, Nat.not_lt]
  exact ⟨⟨⟨coded, located⟩, low⟩, high⟩

theorem target_redirects {host : HostParser} {base : Url} {handled : Handled} {code location : Text}
    (redirects : Redirects handled code location) : target host base handled.response = Url.parse host base (utf8 location) := by
  rw [target, if_pos redirects.status, redirects.header, Option.bind_some]

theorem target_written {host : HostParser} {base : Url} {response : Response} {bytes : Bytes} (printable : Url.Printable bytes)
    (status : 300 ≤ response.status ∧ response.status ≤ 399) (body : Option Bytes) :
    target host base
        { status := response.status,
          headers := Fetch.Headers.set response.headers.entries (text "location") (latin1 bytes), body } =
      Url.parse host base bytes := by
  rw [target, if_pos status, Fetch.Headers.get_set, Option.bind_some, utf8_latin1 (Url.printable_ascii printable)]

theorem sameButError_refl (u : Url) : SameButError u u := ⟨rfl, rfl, rfl, rfl, rfl, rfl, rfl, rfl⟩

theorem kept_same (host : HostParser) (base : Url) (handled : Handled) : Kept host base handled handled.response where
  unchanged _ := rfl
  target u found := ⟨u, found, sameButError_refl u⟩

/-- A URL of the server of the request, of which the path and the query are all. -/
structure Local (base u : Url) : Prop where
  username : u.username = base.username
  password : u.password = base.password
  host : u.host = base.host
  port : u.port = base.port
  hash : u.hash = []
  path : (ascii "//").isPrefixOf u.pathname = false

/-- The location is one that can be read; and if it starts with a slash and has the parameter, its path and query are all of it. -/
def Safe (host : HostParser) (base : Url) (handled : Handled) : Prop :=
  ∀ code location, Redirects handled code location → ∃ u, Url.parse host base (utf8 location) = some u ∧
    (hasError u = true → startsWithSlash location = true → Local base u)

theorem utf8_slash {location : Text} (slash : startsWithSlash location = true) : ∃ rest, utf8 location = byte '/' :: rest := by
  cases location with
  | nil => cases slash
  | cons c location =>
    obtain rfl : c = unit '/' := Option.some.inj (of_decide_eq_true slash)
    exact ⟨utf8 location, utf8_cons (by decide) location⟩

theorem sameButError_withError {u v : Url} {code : Text} (scheme : v.scheme = u.scheme) (username : v.username = u.username)
    (password : v.password = u.password) (host : v.host = u.host) (port : v.port = u.port) (path : v.path = u.path)
    (hash : v.hash = u.hash) (query : v.query = (withError u code).query) : SameButError u v := by
  refine ⟨scheme, username, password, host, port, path, hash, ?_⟩
  have params : v.params = (withError u code).params := by rw [Url.params, query, Url.params]
  rw [params, params_withError, Urlencoded.others_set]

theorem written_whole {host : HostParser} (lawful : Url.LawfulHost host) (base : Url) {u : Url}
    (valid : Url.Valid host u) {location : Text}
    (slash : startsWithSlash location = false) (code : Text) :
    Url.Printable (written location (withError u code)) ∧
      ∃ v, Url.parse host base (written location (withError u code)) = some v ∧ SameButError u v := by
  have whole := valid_withError valid code
  rw [written, slash, if_neg Bool.false_ne_true]
  exact ⟨Url.href_printable lawful whole, withError u code, Url.parse_href lawful base whole (query_withError u code),
    sameButError_withError rfl rfl rfl rfl rfl rfl rfl rfl⟩

theorem written_path {host : HostParser} {u : Url} (is : Url.Base host u) {location : Text} (slash : startsWithSlash location = true)
    (code : Text) : ∃ segments q, u.path = .list segments ∧ segments ≠ [] ∧ (∀ s ∈ segments, Url.Segment true s) ∧
      (withError u code).query = some q ∧ (∀ b ∈ q, Url.querySet true b = false) ∧
      written location (withError u code) = segments.flatMap (byte '/' :: ·) ++ byte '?' :: q := by
  obtain ⟨_, segments, _, _, _, path, nonempty, all⟩ := is.server
  refine ⟨segments, _, path, nonempty, all, query_withError u code, serialize_plain _, ?_⟩
  rw [written, slash, if_pos rfl, search_withError, Url.pathname]
  have same : (withError u code).path = .list segments := path
  rw [same]

theorem printable_path {segments : List Bytes} (all : ∀ s ∈ segments, Url.Segment true s) {q : Bytes}
    (plain : ∀ b ∈ q, Url.querySet true b = false) : Url.Printable (segments.flatMap (byte '/' :: ·) ++ byte '?' :: q) :=
  Url.printable_append (Url.segments_printable all) fun b member => (Url.printable_query plain b member).1

theorem written_kept {host : HostParser} {base : Url} (is : Url.Base host base) {u : Url} (isBase : Url.Base host u)
    (scheme : u.scheme = base.scheme) (isLocal : Local base u) {location : Text}
      (slash : startsWithSlash location = true) (code : Text) :
    ∃ v, Url.parse host base (written location (withError u code)) = some v ∧ SameButError u v := by
  obtain ⟨segments, q, path, nonempty, all, query, plain, same⟩ := written_path isBase slash code
  have single := isLocal.path
  rw [Url.pathname, path] at single
  rw [same, Url.parse_at is nonempty all plain single]
  exact ⟨_, rfl, sameButError_withError scheme.symm isLocal.username.symm isLocal.password.symm isLocal.host.symm isLocal.port.symm
    path.symm isLocal.hash.symm query.symm⟩

theorem written_local {host : HostParser} {base : Url} (is : Url.Base host base) {u : Url} (isBase : Url.Base host u) {location : Text}
    (slash : startsWithSlash location = true) {code : Text} {v : Url}
    (read : Url.parse host base (written location (withError u code)) = some v) (same : SameButError u v) : Local base u := by
  obtain ⟨segments, q, path, nonempty, all, query, plain, form⟩ := written_path isBase slash code
  rw [form] at read
  cases double : (ascii "//").isPrefixOf (segments.flatMap (byte '/' :: ·)) with
  | true => exact (Url.parse_network is nonempty all plain double read (same.path.trans path)).elim
  | false =>
    rw [Url.parse_at is nonempty all plain double] at read
    cases read
    refine ⟨same.username.symm, same.password.symm, same.host.symm, same.port.symm, same.hash.symm, ?_⟩
    rw [Url.pathname, path]
    exact double

theorem kept_of_safe {host : HostParser} (lawful : Url.LawfulHost host) {handler : Request → Handled} {request : Request}
    (is : Url.Base host request.url) (safe : Safe host request.url (handler request)) :
    ∃ answer, withCallbackErrorCodes host handler request = some answer ∧ Kept host request.url (handler request) answer := by
  by_cases redirects : ∃ code location, Redirects (handler request) code location
  · obtain ⟨code, location, redirects⟩ := redirects
    obtain ⟨u, read, isLocal⟩ := safe code location redirects
    have found := (target_redirects redirects).trans read
    rw [answer_read redirects, read, Option.map_some]
    cases error : hasError u with
    | false => exact ⟨_, rfl, kept_same host request.url (handler request)⟩
    | true =>
      have valid := Url.valid_parse lawful is read
      have again : Url.Printable (written location (withError u code)) ∧
          ∃ v, Url.parse host request.url (written location (withError u code)) = some v ∧ SameButError u v := by
        cases slash : startsWithSlash location with
        | false => exact written_whole lawful request.url valid slash code
        | true =>
          obtain ⟨rest, bytes⟩ := utf8_slash slash
          rw [bytes] at read
          obtain ⟨isBase, scheme⟩ := Url.parse_slash_base lawful is read
          obtain ⟨segments, q, _, _, all, _, plain, form⟩ := written_path isBase slash code
          refine ⟨?_, written_kept is isBase scheme (isLocal error slash) slash code⟩
          rw [form]
          exact printable_path all plain
      obtain ⟨printable, v, parsed, same⟩ := again
      refine ⟨_, rfl, ⟨?_, ?_⟩⟩
      · rintro (none | never)
        · have last := redirects.last
          rw [none] at last
          cases last
        · cases error.symm.trans (never u found)
      · intro u' found'
        cases found.symm.trans found'
        exact ⟨v, (target_written printable redirects.status none).trans parsed, same⟩
  · rw [answer_unread fun code location given => redirects ⟨code, location, given⟩]
    exact ⟨_, rfl, kept_same host request.url (handler request)⟩

theorem safe_of_kept {host : HostParser} (lawful : Url.LawfulHost host) {handler : Request → Handled} {request : Request}
    (is : Url.Base host request.url) {answer : Response} (answered : withCallbackErrorCodes host handler request = some answer)
    (kept : Kept host request.url (handler request) answer) : Safe host request.url (handler request) := by
  intro code location redirects
  rw [answer_read redirects] at answered
  obtain ⟨u, read, rfl⟩ := Option.map_eq_some_iff.mp answered
  refine ⟨u, read, fun error slash => ?_⟩
  obtain ⟨v, found, same⟩ := kept.target u ((target_redirects redirects).trans read)
  obtain ⟨rest, bytes⟩ := utf8_slash slash
  rw [bytes] at read
  obtain ⟨isBase, _⟩ := Url.parse_slash_base lawful is read
  obtain ⟨segments, q, _, _, all, _, plain, form⟩ := written_path isBase slash code
  have printable : Url.Printable (written location (withError u code)) := by
    rw [form]
    exact printable_path all plain
  rw [error, Bool.not_true, if_neg Bool.false_ne_true, target_written printable redirects.status] at found
  exact written_local is isBase slash found same

/-- The rewrite keeps everything but the error parameter exactly of the locations that are safe. -/
theorem callback_rewrite_kept {host : HostParser} (lawful : Url.LawfulHost host) (handler : Request → Handled) (request : Request)
    (is : Url.Base host request.url) :
    (∃ answer, withCallbackErrorCodes host handler request = some answer ∧ Kept host request.url (handler request) answer) ↔
      Safe host request.url (handler request) := by
  constructor
  · rintro ⟨answer, answered, kept⟩
    exact safe_of_kept lawful is answered kept
  · exact kept_of_safe lawful is

/-! ### A product's callback -/

/-- Names of small letters and dots, which are read as they stand. -/
def nameHost : HostParser := fun _ name => if name ≠ [] ∧ name.all (fun b => Url.isLower b || b = byte '.') then some name else none

theorem nameHost_lawful : Url.LawfulHost nameHost := by
  have bytes : ∀ b : UInt8, (Url.isLower b || b = byte '.') = true → Url.isHostByte b = true := by
    intro b plain
    rcases Bool.or_eq_true_iff.mp plain with letter | dot
    · exact (Url.lower_byte b letter).2.2
    · obtain rfl := of_decide_eq_true dot
      rfl
  have read : ∀ {special : Bool} {name h : Bytes}, nameHost special name = some h →
      h = name ∧ name ≠ [] ∧ name.all (fun b => Url.isLower b || b = byte '.') := by
    intro special name h read
    unfold nameHost at read
    split at read
    · rename_i plain
      cases read
      exact ⟨rfl, plain⟩
    · cases read
  constructor
  · intro special name h parsed
    obtain ⟨rfl, nonempty, plain⟩ := read parsed
    exact .inl ⟨nonempty, fun b member => bytes b (List.all_eq_true.mp plain b member)⟩
  · intro special name h parsed
    obtain ⟨rfl, _⟩ := read parsed
    exact parsed

def callbackUrl : Url where
  scheme := ascii "https"
  username := []
  password := []
  host := some (ascii "app.example")
  port := none
  path := .list [ascii "callback"]
  query := none
  fragment := none

theorem callbackUrl_base : Url.Base nameHost callbackUrl where
  scheme := ⟨byte 'h', ascii "ttps", rfl, rfl, by decide +kernel⟩
  username := List.forall_mem_nil _
  password := List.forall_mem_nil _
  query := nofun
  fragment := nofun
  shape := by
    refine .server (ascii "app.example") [ascii "callback"] rfl rfl rfl rfl nofun rfl (List.cons_ne_nil _ _) ?_
    intro s member
    obtain rfl := List.mem_singleton.mp member
    exact ⟨by decide +kernel, rfl, rfl⟩
  web := .inr rfl

/-- A sign-in that was refused, and where Better Auth sends the browser. -/
def refusedTo (location : Text) (_ : Request) : Handled where
  refused := [text "ACCOUNT_LINK_REQUIRED"]
  response := { status := 302, headers := [(text "location", location)], body := none }

def loginUrl (query fragment : Option Bytes) : Url := { callbackUrl with path := .list [ascii "login"], query, fragment }

/-- A fragment that the product's error page was given with is lost. -/
theorem callback_fragment_lost : ¬ ∃ answer,
    withCallbackErrorCodes nameHost (refusedTo (text "/login?error=x#sso")) ⟨callbackUrl⟩ = some answer ∧
      Kept nameHost callbackUrl (refusedTo (text "/login?error=x#sso") ⟨callbackUrl⟩) answer := by
  rintro ⟨answer, answered, kept⟩
  have wrote : withCallbackErrorCodes nameHost (refusedTo (text "/login?error=x#sso")) ⟨callbackUrl⟩ =
      some ⟨302, [(text "location", text "/login?error=ACCOUNT_LINK_REQUIRED")], none⟩ := by decide +kernel
  cases wrote.symm.trans answered
  have before : target nameHost callbackUrl (refusedTo (text "/login?error=x#sso") ⟨callbackUrl⟩).response =
      some (loginUrl (some (ascii "error=x")) (some (ascii "sso"))) := by decide +kernel
  have after : target nameHost callbackUrl ⟨302, [(text "location", text "/login?error=ACCOUNT_LINK_REQUIRED")], none⟩ =
      some (loginUrl (some (ascii "error=ACCOUNT_LINK_REQUIRED")) none) := by decide +kernel
  obtain ⟨v, found, same⟩ := kept.target _ before
  cases after.symm.trans found
  exact absurd same.hash (by decide)

/-- A whole URL keeps its server and its fragment. -/
theorem callback_rewrite_kept_whole : ∃ answer,
    withCallbackErrorCodes nameHost (refusedTo (text "https://login.example/login?error=x&next=home#sso"))
      ⟨callbackUrl⟩ = some answer ∧
      Kept nameHost callbackUrl (refusedTo (text "https://login.example/login?error=x&next=home#sso") ⟨callbackUrl⟩) answer := by
  refine (callback_rewrite_kept nameHost_lawful _ ⟨callbackUrl⟩ callbackUrl_base).mpr ?_
  intro code location redirects
  obtain rfl : text "https://login.example/login?error=x&next=home#sso" = location := Option.some.inj redirects.header
  have read : (Url.parse nameHost callbackUrl
    (utf8 (text "https://login.example/login?error=x&next=home#sso"))).isSome := by decide +kernel
  obtain ⟨u, found⟩ := Option.isSome_iff_exists.mp read
  exact ⟨u, found, fun _ slash => by cases slash⟩

end CallbackErrors
