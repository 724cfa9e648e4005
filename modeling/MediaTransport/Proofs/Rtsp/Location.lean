import MediaTransport.Proofs.Address.Hosts
import MediaTransport.Rtsp.Location

/-!
# The parts of a location

A location is divided at its scheme, at the slash that starts its path and at the last `@` before
that (`Divides`), so credentials may hold every separator but a slash and a path may hold all of
them.  What is left is the authority.  It is a host in square brackets or one up to the last colon,
and what stands behind it (`HasParts`), which has to be a port or nothing (`IsPort`).

A text is divided in one way only, so it is read just when it has all these parts
(`ofText?_eq_some_iff`), and otherwise there is a part that it has not (`IsRefused`).
-/

namespace MediaTransport.Rtsp

open Text Address

/-! ## The grammar -/

/-- The scheme of a location is `rtsp://`, in any letter case. -/
def IsScheme (opening : List Char) : Prop :=
  opening.map Char.toLower = "rtsp://".toList

/-- Credentials with the `@` that ends them, or none. -/
structure IsCredentials (credentials : List Char) : Prop where
  /-- They end before the path. -/
  slash : '/' ∉ credentials
  /-- They end with `@`. -/
  last : ∀ c ∈ credentials.getLast?, c = '@'

/-- A path that starts with a slash, or none. -/
def IsPath (path : List Char) : Prop :=
  ∀ c ∈ path.head?, c = '/'

/-- A text with its authority and its path. -/
inductive Divides : List Char → List Char → List Char → Prop where
  | intro {opening credentials authority path : List Char} (hscheme : IsScheme opening)
      (hcredentials : IsCredentials credentials) (hat : '@' ∉ authority) (hslash : '/' ∉ authority)
      (hpath : IsPath path) :
      Divides (opening ++ (credentials ++ (authority ++ path))) authority path

/-- An authority with its host and what stands behind it. -/
inductive HasParts : List Char → List Char → List Char → Prop where
  | bracketed {host : List Char} (hclose : ']' ∉ host) (tail : List Char) :
      HasParts ('[' :: (host ++ ']' :: tail)) host tail
  | plain {host : List Char} (hopen : host.head? ≠ some '[') (hcolon : ':' ∉ host) :
      HasParts host host []
  | ported {host digits : List Char} (hopen : (host ++ ':' :: digits).head? ≠ some '[')
      (hcolon : ':' ∉ digits) : HasParts (host ++ ':' :: digits) host (':' :: digits)

/-- What stands behind a host: a colon and a port, or nothing, which is port 554. -/
inductive IsPort : List Char → UInt16 → Prop where
  | absent : IsPort [] 554
  | given {digits : List Char} {port : UInt16} (h : IsDecimal digits port.toNat) :
      IsPort (':' :: digits) port

/-! ## Scheme, credentials and path -/

/-- The scheme is compared without regard to case. -/
theorem isScheme_iff {opening : List Char} :
    IsScheme opening ↔ equalsIgnoringCase opening scheme = true := by
  have hlower : scheme.map Char.toLower = "rtsp://".toList := by decide
  rw [IsScheme, equalsIgnoringCase, beq_iff_eq, hlower]

theorem IsScheme.length {opening : List Char} (h : IsScheme opening) :
    opening.length = scheme.length := by
  have hlength := congrArg List.length h
  rw [List.length_map] at hlength
  exact hlength

/-- Only a text with the scheme has a rest behind it. -/
theorem afterScheme?_eq_some_iff {text rest : List Char} :
    afterScheme? text = some rest ↔ ∃ opening, IsScheme opening ∧ text = opening ++ rest := by
  rw [afterScheme?]
  constructor
  · intro h
    obtain ⟨hscheme, h⟩ := Option.ite_none_right_eq_some.1 h
    refine ⟨text.take scheme.length, isScheme_iff.2 hscheme, ?_⟩
    rw [← Option.some.inj h, List.take_append_drop]
  · rintro ⟨opening, hscheme, rfl⟩
    rw [← hscheme.length, List.take_left, List.drop_left]
    exact if_pos (isScheme_iff.1 hscheme)

/-- Credentials end at the last at sign. -/
theorem withoutCredentials_append {credentials authority : List Char}
    (hcredentials : IsCredentials credentials) (hat : '@' ∉ authority) :
    withoutCredentials (credentials ++ authority) = authority := by
  rw [withoutCredentials]
  cases hlast : credentials.getLast? with
  | none =>
    rw [List.getLast?_eq_none_iff] at hlast
    rw [hlast, List.nil_append, cutLast?_eq_none.2 hat]
  | some c =>
    obtain rfl := hcredentials.last c hlast
    obtain ⟨front, rfl⟩ := List.getLast?_eq_some_iff.1 hlast
    rw [List.append_assoc, List.singleton_append, cutLast?_append hat]

theorem exists_credentials {text : List Char} (hslash : '/' ∉ text) :
    ∃ credentials authority, IsCredentials credentials ∧ '@' ∉ authority ∧ '/' ∉ authority ∧
      text = credentials ++ authority := by
  cases hcut : cutLast? '@' text with
  | none => exact ⟨[], text, ⟨by simp, by simp⟩, cutLast?_eq_none.1 hcut, hslash, rfl⟩
  | some parts =>
    obtain ⟨front, rest⟩ := parts
    obtain ⟨rfl, hat⟩ := cutLast?_eq_some hcut
    simp only [List.mem_append, List.mem_cons, not_or] at hslash
    refine ⟨front ++ ['@'], rest, ⟨?_, by simp⟩, hat, hslash.2.2, by simp⟩
    simp [hslash.1]

theorem before_append {first path : List Char} (hslash : '/' ∉ first) (hpath : IsPath path) :
    before '/' (first ++ path) = first := by
  have hfirst : ∀ c ∈ first, (c != '/') = true := by
    intro c hc
    rw [bne_iff_ne]
    rintro rfl
    exact hslash hc
  rw [before, List.takeWhile_append_of_pos hfirst]
  cases path with
  | nil => simp
  | cons c rest =>
    obtain rfl : c = '/' := hpath c rfl
    simp

/-- Every text has a path from its first slash on, or none. -/
theorem exists_path (text : List Char) :
    ∃ first path, '/' ∉ first ∧ IsPath path ∧ text = first ++ path := by
  refine ⟨text.takeWhile (· != '/'), text.dropWhile (· != '/'), fun hmem => ?_, fun c hc => ?_,
    List.takeWhile_append_dropWhile.symm⟩
  · have hslash := List.mem_takeWhile_imp hmem
    simp at hslash
  · have hkept := List.head?_dropWhile_not (· != '/') text
    rw [hc] at hkept
    simpa using hkept

/-- Behind its scheme every text is divided. -/
theorem exists_divides {opening : List Char} (h : IsScheme opening) (rest : List Char) :
    ∃ authority path, Divides (opening ++ rest) authority path := by
  obtain ⟨first, path, hfirst, hpath, rfl⟩ := exists_path rest
  obtain ⟨credentials, authority, hcredentials, hat, hslash, rfl⟩ := exists_credentials hfirst
  refine ⟨authority, path, ?_⟩
  rw [List.append_assoc]
  exact .intro h hcredentials hat hslash hpath

/-! ## Host and port -/

/-- The port that is given behind a host. -/
def readPort? : List Char → Option UInt16
  | [] => some defaultPort
  | ':' :: digits => readUInt16? digits
  | _ => none

/-- Without a port it is the default one. -/
theorem readPort?_eq_some_iff {tail : List Char} {port : UInt16} :
    readPort? tail = some port ↔ IsPort tail port := by
  constructor
  · intro h
    unfold readPort? at h
    split at h
    next => cases h; exact .absent
    next => exact .given (readUInt16?_eq_some_iff.1 h)
    next => cases h
  · intro h
    cases h with
    | absent => rfl
    | given h => exact readUInt16?_eq_some_iff.2 h

theorem afterOpening?_eq_none {c : Char} {text : List Char} (h : text.head? ≠ some c) :
    afterOpening? [c] text = none := by
  rw [Option.eq_none_iff_forall_ne_some]
  intro rest hrest
  rw [afterOpening?_eq_some_iff] at hrest
  exact h (by rw [hrest]; rfl)

/-- An authority is taken apart into its parts. -/
theorem HasParts.splitAuthority?_eq {authority host tail : List Char}
    (h : HasParts authority host tail) :
    splitAuthority? authority = (readPort? tail).map fun port => (host, port) := by
  rw [splitAuthority?]
  cases h with
  | bracketed hclose tail =>
    rw [afterOpening?, if_pos rfl, afterOpening?]
    simp only [cut?_append hclose, Option.bind_eq_bind, Option.bind_some]
    unfold readPort?
    split <;> simp [Option.map_eq_bind]
  | plain hopen hcolon =>
    rw [afterOpening?_eq_none hopen, cutLast?_eq_none.2 hcolon]
    rfl
  | ported hopen hcolon =>
    rw [afterOpening?_eq_none hopen, cutLast?_append hcolon]
    simp [readPort?, Option.map_eq_bind]

/-- An authority has parts unless it has a bracket that is not closed. -/
theorem exists_parts (authority : List Char) :
    (∃ rest, authority = '[' :: rest ∧ ']' ∉ rest) ∨ ∃ host tail, HasParts authority host tail := by
  by_cases hopen : authority.head? = some '['
  · obtain ⟨rest, rfl⟩ := List.head?_eq_some_iff.1 hopen
    by_cases hclose : ']' ∈ rest
    · obtain ⟨host, tail, rfl, hhost⟩ := List.eq_append_cons_of_mem hclose
      exact .inr ⟨host, tail, .bracketed hhost tail⟩
    · exact .inl ⟨rest, rfl, hclose⟩
  · cases hcut : cutLast? ':' authority with
    | none => exact .inr ⟨authority, [], .plain hopen (cutLast?_eq_none.1 hcut)⟩
    | some parts =>
      obtain ⟨host, digits⟩ := parts
      obtain ⟨rfl, hcolon⟩ := cutLast?_eq_some hcut
      exact .inr ⟨host, ':' :: digits, .ported hopen hcolon⟩

/-! ## Locations -/

/-- What the parts of a text say of a location. -/
inductive IsLocation : List Char → Location → Prop where
  | intro {text authority path host tail : List Char} {l : Location}
      (hdivides : Divides text authority path) (hparts : HasParts authority host tail)
      (hport : IsPort tail l.port) (hhost : IsHost (trim host) l.host)
      (hpath : l.path = if path = [] then "/" else String.ofList path)
      (htext : l.text = String.ofList (withoutSlashes text)) : IsLocation text l

/-- What a text can lack to be a location. -/
inductive IsRefused : List Char → Prop where
  /-- It does not start with the scheme. -/
  | scheme {text : List Char} (h : ∀ opening rest, IsScheme opening → text ≠ opening ++ rest) :
      IsRefused text
  /-- Nothing stands behind the credentials. -/
  | empty {text path : List Char} (h : Divides text [] path) : IsRefused text
  /-- A bracket is not closed. -/
  | unclosed {text rest path : List Char} (h : Divides text ('[' :: rest) path)
      (hclose : ']' ∉ rest) : IsRefused text
  /-- What stands behind the host is no port of sixteen bits. -/
  | port {text authority path host tail : List Char} (h : Divides text authority path)
      (hparts : HasParts authority host tail) (hport : ∀ port, ¬IsPort tail port) : IsRefused text
  /-- The host is blank. -/
  | host {text authority path host tail : List Char} (h : Divides text authority path)
      (hparts : HasParts authority host tail) (hblank : trim host = []) : IsRefused text

/-- A divided text is read part by part. -/
theorem Divides.ofText?_eq {text authority path : List Char} (h : Divides text authority path) :
    Location.ofText? text = (splitAuthority? authority).bind fun (host, port) =>
      (Host.parse host).toOption.map fun host =>
        { host, port, path := if path = [] then "/" else String.ofList path,
          text := String.ofList (withoutSlashes text) } := by
  cases h with
  | @intro opening credentials authority path hscheme hcredentials hat hslash hpath =>
    have hbefore : before '/' (credentials ++ (authority ++ path)) = credentials ++ authority := by
      rw [← List.append_assoc]
      refine before_append ?_ hpath
      rw [List.mem_append, not_or]
      exact ⟨hcredentials.slash, hslash⟩
    have hdrop : (credentials ++ (authority ++ path)).drop (credentials ++ authority).length
        = path := by
      rw [← List.append_assoc, List.drop_left]
    rw [Location.ofText?, afterScheme?_eq_some_iff.2 ⟨opening, hscheme, rfl⟩]
    simp only [Option.bind_eq_bind, Option.bind_some, hbefore, hdrop,
      withoutCredentials_append hcredentials hat, List.isEmpty_iff]
    simp only [Option.map_eq_bind]
    rfl

theorem toOption_parse_eq_some_iff {text : List Char} {host : Host} :
    (Host.parse text).toOption = some host ↔ IsHost (trim text) host := by
  rw [← Host.parse_eq_ok_iff]
  cases Host.parse text <;> simp [Except.toOption]

/-- The same when the authority is taken apart. -/
theorem Divides.ofText?_parts {text authority path host tail : List Char}
    (h : Divides text authority path) (hparts : HasParts authority host tail) :
    Location.ofText? text = (readPort? tail).bind fun port =>
      (Host.parse host).toOption.map fun host =>
        { host, port, path := if path = [] then "/" else String.ofList path,
          text := String.ofList (withoutSlashes text) } := by
  rw [h.ofText?_eq, hparts.splitAuthority?_eq, Option.bind_map]
  rfl

theorem splitAuthority?_unclosed {rest : List Char} (hclose : ']' ∉ rest) :
    splitAuthority? ('[' :: rest) = none := by
  rw [splitAuthority?, afterOpening?, if_pos rfl, afterOpening?]
  simp only [cut?_eq_none.2 hclose]
  rfl

theorem Divides.ofText?_unclosed {text rest path : List Char} (h : Divides text ('[' :: rest) path)
    (hclose : ']' ∉ rest) : Location.ofText? text = none := by
  rw [h.ofText?_eq, splitAuthority?_unclosed hclose]
  rfl

/-- A location is read from its texts and from no other. -/
theorem ofText?_eq_some_iff {text : List Char} {l : Location} :
    Location.ofText? text = some l ↔ IsLocation text l := by
  constructor
  · intro h
    obtain ⟨rest, hrest, -⟩ := Option.bind_eq_some_iff.1 h
    obtain ⟨opening, hopening, rfl⟩ := afterScheme?_eq_some_iff.1 hrest
    obtain ⟨authority, path, hdivides⟩ := exists_divides hopening rest
    obtain ⟨rest, rfl, hclose⟩ | ⟨host, tail, hparts⟩ := exists_parts authority
    · rw [hdivides.ofText?_unclosed hclose] at h
      cases h
    · rw [hdivides.ofText?_parts hparts] at h
      obtain ⟨port, hport, h⟩ := Option.bind_eq_some_iff.1 h
      obtain ⟨host, hhost, rfl⟩ := Option.map_eq_some_iff.1 h
      exact .intro hdivides hparts (readPort?_eq_some_iff.1 hport)
        (toOption_parse_eq_some_iff.1 hhost) rfl rfl
  · rintro ⟨hdivides, hparts, hport, hhost, hpath, htext⟩
    rw [hdivides.ofText?_parts hparts, readPort?_eq_some_iff.2 hport, Option.bind_some,
      toOption_parse_eq_some_iff.2 hhost, Option.map_some, ← hpath, ← htext]

/-- A text that is refused lacks a part of a location. -/
theorem ofText?_eq_none_iff {text : List Char} :
    Location.ofText? text = none ↔ IsRefused text := by
  constructor
  · intro h
    by_cases hscheme : ∃ opening rest, IsScheme opening ∧ text = opening ++ rest
    · obtain ⟨opening, rest, hopening, rfl⟩ := hscheme
      obtain ⟨authority, path, hdivides⟩ := exists_divides hopening rest
      obtain ⟨rest, rfl, hclose⟩ | ⟨host, tail, hparts⟩ := exists_parts authority
      · exact .unclosed hdivides hclose
      by_cases hport : ∃ port, IsPort tail port
      · obtain ⟨port, hport⟩ := hport
        rw [hdivides.ofText?_parts hparts, readPort?_eq_some_iff.2 hport, Option.bind_some,
          Option.map_eq_none_iff] at h
        refine .host hdivides hparts ?_
        by_contra hblank
        rw [parse_of_trim_ne_nil hblank] at h
        cases h
      · exact .port hdivides hparts fun port h => hport ⟨port, h⟩
    · exact .scheme fun opening rest hopening htext => hscheme ⟨opening, rest, hopening, htext⟩
  · intro h
    cases h with
    | scheme h =>
      have hnone : afterScheme? text = none := by
        rw [Option.eq_none_iff_forall_ne_some]
        intro rest hrest
        obtain ⟨opening, hopening, htext⟩ := afterScheme?_eq_some_iff.1 hrest
        exact h opening rest hopening htext
      rw [Location.ofText?, hnone]
      rfl
    | empty h =>
      rw [h.ofText?_eq]
      rfl
    | unclosed h hclose => exact h.ofText?_unclosed hclose
    | port h hparts hport =>
      rw [h.ofText?_parts hparts, Option.bind_eq_none_iff]
      exact fun port hread => absurd (readPort?_eq_some_iff.1 hread) (hport port)
    | host h hparts hblank =>
      rw [h.ofText?_parts hparts, parse_of_trim_eq_nil hblank, Option.bind_eq_none_iff]
      exact fun _ _ => rfl

theorem Location.parse_eq_ok_iff {text : String} {l : Location} :
    Location.parse text = .ok l ↔ IsLocation text.toList l := by
  rw [← ofText?_eq_some_iff, Location.parse]
  cases Location.ofText? text.toList <;> simp

theorem Location.parse_eq_error_iff {text : String} {e : Error} :
    Location.parse text = .error e ↔
      IsRefused text.toList ∧ e = .protocol (.invalidUrl text) := by
  rw [← ofText?_eq_none_iff, Location.parse]
  cases Location.ofText? text.toList <;> simp [eq_comm]

/-! ## Composed locations -/

/-- What stands for a host in a location: an IPv4 address, an IPv6 address in brackets, or a name,
which is no IPv4 address and has no separator in it. -/
inductive IsHostText : List Char → Host → Prop where
  | ipv4 (ip : Ipv4) : IsHostText ip.render.toList (.ipv4 ip)
  | ipv6 {text : List Char} {ip : Ipv6} (h : IsIpv6 text ip) :
      IsHostText ('[' :: (text ++ [']'])) (.ipv6 ip)
  | name {text : List Char} (hne : text ≠ []) (hopen : text.head? ≠ some '[')
      (hchars : ∀ c ∈ text, c ≠ '/' ∧ c ≠ ':' ∧ c ≠ '@' ∧ isBlank c = false)
      (hipv4 : ∀ ip : Ipv4, text ≠ ip.render.toList) : IsHostText text (.name (String.ofList text))

/-- There are only digits in a port, and a sign and the colon before them. -/
theorem IsPort.not_mem {tail : List Char} {port : UInt16} (h : IsPort tail port) {c : Char}
    (hcolon : c ≠ ':') (hdigit : c.isDigit = false) (hplus : c ≠ '+') : c ∉ tail := by
  cases h with
  | absent => exact List.not_mem_nil
  | given h => exact List.not_mem_cons_of_ne_of_not_mem hcolon (h.not_mem hdigit hplus)

/-- Without colons and brackets of its own a host is cut off before its port. -/
theorem hasParts_append {host tail : List Char} {port : UInt16} (hne : host ≠ [])
    (hopen : host.head? ≠ some '[') (hcolon : ':' ∉ host) (hport : IsPort tail port) :
    HasParts (host ++ tail) host tail := by
  cases hport with
  | absent =>
    rw [List.append_nil]
    exact .plain hopen hcolon
  | given h =>
    refine .ported ?_ (h.not_mem rfl (by decide))
    obtain ⟨c, rest, rfl⟩ := List.exists_cons_of_ne_nil hne
    exact hopen

theorem IsHostText.hasParts {text tail : List Char} {host : Host} {port : UInt16}
    (h : IsHostText text host) (hport : IsPort tail port) :
    ∃ first, HasParts (text ++ tail) first tail ∧ IsHost (trim first) host := by
  cases h with
  | ipv4 ip =>
    have hliteral : IsLiteral ip.render.toList (.v4 ip) := .v4 ip
    have hhost : IsHost ip.render.toList (.ipv4 ip) := .literal hliteral
    refine ⟨ip.render.toList, hasParts_append hliteral.ne_nil ?_ ?_ hport, ?_⟩
    · intro hhead
      exact ip.not_mem_render (by decide) rfl (List.mem_of_head? hhead)
    · exact ip.not_mem_render (by decide) rfl
    · rwa [hhost.isTrimmed.trim_eq]
  | @ipv6 inner ip h =>
    have hliteral : IsLiteral inner (.v6 ip) := .v6 h
    have hhost : IsHost inner (.ipv6 ip) := .literal hliteral
    refine ⟨inner, ?_, by rwa [hhost.isTrimmed.trim_eq]⟩
    rw [List.cons_append, List.append_assoc, List.singleton_append]
    exact .bracketed (hliteral.not_mem (by decide) (by decide) rfl) tail
  | name hne hopen hchars hipv4 =>
    have hcolon : ':' ∉ text := fun hmem => (hchars ':' hmem).2.1 rfl
    have htrimmed : IsTrimmed text := isTrimmed_of_forall fun c hc => (hchars c hc).2.2.2
    refine ⟨text, hasParts_append hne hopen hcolon hport, ?_⟩
    rw [htrimmed.trim_eq]
    refine .name ⟨hne, htrimmed, ?_, ?_⟩
    · intro ip hip
      cases hip with
      | v4 ip => exact hipv4 ip rfl
      | v6 h => exact hcolon h.colon_mem
    · rintro inner _ rfl
      exact absurd rfl hopen

theorem IsHostText.not_mem {text : List Char} {host : Host} (h : IsHostText text host) :
    '@' ∉ text ∧ '/' ∉ text := by
  cases h with
  | ipv4 ip => exact ⟨ip.not_mem_render (by decide) rfl, ip.not_mem_render (by decide) rfl⟩
  | ipv6 h =>
    have hliteral := IsLiteral.v6 h
    simp only [List.mem_cons, List.mem_append, List.not_mem_nil, or_false, not_or]
    exact ⟨⟨by decide, hliteral.not_mem (by decide) (by decide) rfl, by decide⟩,
      ⟨by decide, hliteral.not_mem (by decide) (by decide) rfl, by decide⟩⟩
  | name _ _ hchars _ => exact ⟨fun h => (hchars '@' h).2.2.1 rfl, fun h => (hchars '/' h).1 rfl⟩

/-- A location that is put together from its parts is read as these parts.  Any other text is
refused as a whole, and just because one of the parts is missing. -/
theorem Location.parse_parts :
    (∀ {opening credentials host tail path : List Char} {h : Host} {port : UInt16},
      IsScheme opening → IsCredentials credentials → IsHostText host h → IsPort tail port →
      IsPath path → ∃ l, Location.parse
          (String.ofList (opening ++ (credentials ++ (host ++ tail ++ path)))) = .ok l ∧
        l.host = h ∧ l.port = port ∧ l.path = if path = [] then "/" else String.ofList path) ∧
    ∀ (text : String) (e : Error), Location.parse text = .error e ↔
      IsRefused text.toList ∧ e = .protocol (.invalidUrl text) := by
  refine ⟨?_, fun text e => Location.parse_eq_error_iff⟩
  intro opening credentials host tail path h port hopening hcredentials hhost hport hpath
  obtain ⟨hat, hslash⟩ := hhost.not_mem
  obtain ⟨first, hparts, hfirst⟩ := hhost.hasParts hport
  have hdivides : Divides (opening ++ (credentials ++ (host ++ tail ++ path))) (host ++ tail)
      path := by
    refine .intro hopening hcredentials ?_ ?_ hpath
    · rw [List.mem_append, not_or]
      exact ⟨hat, hport.not_mem (by decide) rfl (by decide)⟩
    · rw [List.mem_append, not_or]
      exact ⟨hslash, hport.not_mem (by decide) rfl (by decide)⟩
  refine ⟨⟨h, port, if path = [] then "/" else String.ofList path, String.ofList (withoutSlashes
    (opening ++ (credentials ++ (host ++ tail ++ path))))⟩, ?_, rfl, rfl, rfl⟩
  rw [Location.parse_eq_ok_iff, String.toList_ofList]
  exact .intro hdivides hparts hport hfirst rfl rfl

/-- Credentials with separators in them, an IPv6 address with a dotted end, a port with a sign and a
path with separators; a location that is only a host; and a bracket that is not closed before the
path. -/
theorem Location.parse_parts_crowded :
    IsHostText "[0::fFFf:10.0.0.5]".toList (.ipv6 (Ipv4.mapped ⟨10, 0, 0, 5⟩)) ∧
    (∃ l, Location.parse "RtSp://a:[b@c]@[0::fFFf:10.0.0.5]:+080/x@y:[z" = .ok l ∧
      l.host = .ipv6 (Ipv4.mapped ⟨10, 0, 0, 5⟩) ∧ l.port = 80 ∧ l.path = "/x@y:[z") ∧
    (∃ l, Location.parse "rtsp://10.0.0.5" = .ok l ∧
      l.host = .ipv4 ⟨10, 0, 0, 5⟩ ∧ l.port = 554 ∧ l.path = "/") ∧
    Location.parse "rtsp://[::1/]:80" = .error (.protocol (.invalidUrl "rtsp://[::1/]:80")) := by
  have hip : IsIpv6 "0::fFFf:10.0.0.5".toList (Ipv4.mapped ⟨10, 0, 0, 5⟩) :=
    Ipv6.parse?_eq_some_iff.1 (by decide +kernel)
  have hhost : IsHostText "[0::fFFf:10.0.0.5]".toList _ := IsHostText.ipv6 hip
  have hport : IsPort ":+080".toList 80 := readPort?_eq_some_iff.1 (by decide +kernel)
  have hscheme : IsScheme "RtSp://".toList := by
    rw [IsScheme]
    decide
  have hscheme' : IsScheme "rtsp://".toList := by
    rw [IsScheme]
    decide
  have hcredentials : IsCredentials "a:[b@c]@".toList := ⟨by decide, by simp⟩
  have hnone : IsCredentials [] := ⟨by decide, by simp⟩
  have hpath : IsPath "/x@y:[z".toList := by simp [IsPath]
  have hpath' : IsPath "/]:80".toList := by simp [IsPath]
  have hauthority : '@' ∉ "[::1".toList ∧ '/' ∉ "[::1".toList := by decide
  have hdivides : Divides "rtsp://[::1/]:80".toList "[::1".toList "/]:80".toList :=
    .intro hscheme' hnone hauthority.1 hauthority.2 hpath'
  have htext : "RtSp://a:[b@c]@[0::fFFf:10.0.0.5]:+080/x@y:[z" = String.ofList ("RtSp://".toList
      ++ ("a:[b@c]@".toList ++ ("[0::fFFf:10.0.0.5]".toList ++ ":+080".toList
        ++ "/x@y:[z".toList))) := by decide +kernel
  have htext' : "rtsp://10.0.0.5" = String.ofList ("rtsp://".toList
      ++ ([] ++ ((Ipv4.render ⟨10, 0, 0, 5⟩).toList ++ [] ++ []))) := by decide +kernel
  obtain ⟨hread, hrefused⟩ := Location.parse_parts
  refine ⟨hhost, ?_, ?_, ?_⟩
  · rw [htext]
    exact hread hscheme hcredentials hhost hport hpath
  · rw [htext']
    exact hread hscheme' hnone (.ipv4 ⟨10, 0, 0, 5⟩) .absent nofun
  · exact (hrefused _ _).2 ⟨.unclosed hdivides (by decide), rfl⟩

end MediaTransport.Rtsp
