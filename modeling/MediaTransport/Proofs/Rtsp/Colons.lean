import MediaTransport.Proofs.Rtsp.Location

/-!
# Colons in hosts

Endpoints and locations take what stands behind the last colon for a port, and do not ask whether
there are more colons before it.  A host that was read has a colon in its own text just when there
is one in the part of the text that it was read from (`IsHost.colon_mem_iff`), so every colon that
is left over comes back: in an IPv6 address without brackets, or in a name.

For an IPv6 address without brackets this means that its last group is lost when it is made of
decimal digits.  The group becomes the port, and what stands before it the host, which is often a
name that ends in a colon (`IsIpv6.exists_lastColon`).
-/

namespace MediaTransport.Address

open Text

/-- A host is written with a colon just when it was read from a text with one. -/
theorem IsHost.colon_mem_iff {text : List Char} {host : Host} (h : IsHost text host) :
    ':' ∈ text ↔ ':' ∈ host.render.toList := by
  have hliteral : ∀ {text : List Char} {ip : Ip}, IsLiteral text ip →
      (':' ∈ text ↔ ':' ∈ (Host.ofIp ip).render.toList) := by
    intro text ip h
    rw [Host.render_ofIp]
    cases h with
    | v4 ip => exact Iff.rfl
    | @v6 _ ip h => exact iff_of_true h.colon_mem (isIpv6_render ip).colon_mem
  cases h with
  | literal h => exact hliteral h
  | bracketed h => simpa using hliteral h
  | name h => rw [Host.render, String.toList_ofList]

theorem colon_mem_part_iff {part : List Char} {host : Host} (h : IsHost (trim part) host) :
    ':' ∈ part ↔ ':' ∈ host.render.toList := by
  rw [← h.colon_mem_iff, mem_trim_iff rfl]

/-- A trimmed text that is not empty stands for one host. -/
theorem exists_isHost_iff {text : List Char} (h : IsTrimmed text) (hne : text ≠ []) :
    ∃ host, ∀ other, IsHost text other ↔ other = host := by
  cases hparse : Host.parse text with
  | error e =>
    rw [Host.parse_eq_error_iff, h.trim_eq] at hparse
    exact absurd hparse.1 hne
  | ok host =>
    refine ⟨host, fun other => ?_⟩
    rw [← h.trim_eq, ← Host.parse_eq_ok_iff, hparse, Except.ok.injEq, eq_comm]

theorem IsIpv6.one_lt_count {text : List Char} {ip : Ipv6} (h : IsIpv6 text ip) :
    1 < text.count ':' := by
  cases h with
  | full h =>
    obtain ⟨pieces, hsolid, rfl, hlength⟩ := h.exists_areSolid
    have height : ip.groups.length = 8 := rfl
    exact one_lt_count_intercalate (by omega)
  | gap =>
    simp only [List.count_append, List.count_cons_self]
    omega

/-- Before the last colon of an IPv6 address there is another one. -/
theorem IsIpv6.exists_lastColon {text : List Char} {ip : Ipv6} (h : IsIpv6 text ip) :
    ∃ part last, text = part ++ ':' :: last ∧ ':' ∈ part ∧ ':' ∉ last := by
  cases hcut : cutLast? ':' text with
  | none => exact absurd h.colon_mem (cutLast?_eq_none.1 hcut)
  | some parts =>
    obtain ⟨rfl, hlast⟩ := cutLast?_eq_some hcut
    exact ⟨parts.1, parts.2, rfl, (mem_iff_one_lt_count hlast).2 h.one_lt_count, hlast⟩

/-- An endpoint is taken apart at its last colon, whatever stands before it. -/
theorem isEndpoint_append_iff {part last : List Char} (hlast : ':' ∉ last) {e : Endpoint} :
    IsEndpoint (part ++ ':' :: last) e ↔
      IsHost (trim part) e.host ∧ IsDecimal last e.port.toNat := by
  constructor
  · intro h
    generalize htext : part ++ ':' :: last = text at h
    cases h with
    | @intro first digits _ hhost hport =>
      have hcolon : ':' ∉ digits := hport.not_mem rfl (by decide)
      have hcut := cutLast?_append hcolon first
      rw [← htext, cutLast?_append hlast] at hcut
      cases hcut
      exact ⟨hhost, hport⟩
  · rintro ⟨hhost, hport⟩
    exact .intro hhost hport

end MediaTransport.Address

namespace MediaTransport.Rtsp

open Text Address

/-- A location has the host and the port that its authority says. -/
theorem Divides.exists_parse_iff {text authority path part tail : List Char}
    (hdivides : Divides text authority path) (hparts : HasParts authority part tail) {host : Host}
    {port : UInt16} :
    (∃ l, Location.parse (String.ofList text) = .ok l ∧ l.host = host ∧ l.port = port) ↔
      IsHost (trim part) host ∧ IsPort tail port := by
  constructor
  · rintro ⟨l, hl, rfl, rfl⟩
    rw [Location.parse_eq_ok_iff, String.toList_ofList, ← ofText?_eq_some_iff,
      hdivides.ofText?_parts hparts] at hl
    obtain ⟨port, hport, hl⟩ := Option.bind_eq_some_iff.1 hl
    obtain ⟨host, hhost, rfl⟩ := Option.map_eq_some_iff.1 hl
    exact ⟨toOption_parse_eq_some_iff.1 hhost, readPort?_eq_some_iff.1 hport⟩
  · rintro ⟨hhost, hport⟩
    refine ⟨⟨host, port, if path = [] then "/" else String.ofList path,
      String.ofList (withoutSlashes text)⟩, ?_, rfl, rfl⟩
    rw [Location.parse_eq_ok_iff, String.toList_ofList]
    exact .intro hdivides hparts hport hhost rfl rfl

/-- Without a bracket the colons of an authority are those of its host and one before its port. -/
theorem HasParts.colon_mem_iff {authority part tail : List Char} (h : HasParts authority part tail)
    (hopen : authority.head? ≠ some '[') : ':' ∈ part ↔ 1 < authority.count ':' := by
  cases h with
  | bracketed hclose tail => exact absurd rfl hopen
  | plain _ hcolon =>
    rw [List.count_eq_zero_of_not_mem hcolon]
    exact iff_of_false hcolon (by decide)
  | ported _ hcolon => exact mem_iff_one_lt_count hcolon

theorem isScheme_scheme : IsScheme scheme := by
  rw [IsScheme]
  decide

theorem isPort_cons_iff {digits : List Char} {port : UInt16} :
    IsPort (':' :: digits) port ↔ IsDecimal digits port.toNat := by
  constructor
  · rintro ⟨⟩
    assumption
  · exact .given

/-- The text of an IPv6 address stands in an authority as it is. -/
theorem divides_ipv6 {text : List Char} {ip : Ipv6} (h : IsIpv6 text ip) :
    Divides (scheme ++ text) text [] := by
  have hliteral : IsLiteral text (.v6 ip) := .v6 h
  have hdivides : Divides (scheme ++ ([] ++ (text ++ []))) text [] :=
    .intro isScheme_scheme ⟨List.not_mem_nil, nofun⟩
      (hliteral.not_mem (by decide) (by decide) rfl) (hliteral.not_mem (by decide) (by decide) rfl)
      nofun
  rwa [List.nil_append, List.append_nil] at hdivides

/-- A host that was read from a text with two colons and no brackets has a colon in its own text: it
is an IPv6 address or a name with a colon.  Where there is one colon there is none in the host.  The
text of an IPv6 address is never taken for its own host.  It is refused unless its last group is a
decimal numeral; then this is the port, and what stands before it is a host with a colon. -/
theorem colons_inHosts (text : String) :
    (∀ e, Endpoint.parse text = .ok e →
      ∃ part digits, trim text.toList = part ++ ':' :: digits ∧ IsHost (trim part) e.host ∧
        IsDecimal digits e.port.toNat ∧ (':' ∈ part ↔ 1 < (trim text.toList).count ':') ∧
        (':' ∈ part ↔ ':' ∈ e.host.render.toList)) ∧
    (∀ l, Location.parse text = .ok l →
      ∃ authority path part tail, Divides text.toList authority path ∧
        HasParts authority part tail ∧ IsHost (trim part) l.host ∧ IsPort tail l.port ∧
        (authority.head? ≠ some '[' → (':' ∈ part ↔ 1 < authority.count ':')) ∧
        (':' ∈ part ↔ ':' ∈ l.host.render.toList)) ∧
    ∀ ip, IsIpv6 text.toList ip →
      ∃ part last host, text.toList = part ++ ':' :: last ∧ IsHost part host ∧
        ':' ∈ host.render.toList ∧
        (∀ e, Endpoint.parse text = .ok e ↔ e.host = host ∧ IsDecimal last e.port.toNat) ∧
        ∀ other port, (∃ l, Location.parse (String.ofList (scheme ++ text.toList)) = .ok l ∧
            l.host = other ∧ l.port = port) ↔ other = host ∧ IsDecimal last port.toNat := by
  refine ⟨?_, ?_, ?_⟩
  · intro e h
    rw [Endpoint.parse_eq_ok_iff] at h
    generalize trim text.toList = trimmed at h
    cases h with
    | @intro part digits _ hhost hport =>
      have hcolon : ':' ∉ digits := hport.not_mem rfl (by decide)
      exact ⟨part, digits, rfl, hhost, hport, mem_iff_one_lt_count hcolon,
        colon_mem_part_iff hhost⟩
  · intro l h
    rw [Location.parse_eq_ok_iff] at h
    cases h with
    | intro hdivides hparts hport hhost _ _ =>
      exact ⟨_, _, _, _, hdivides, hparts, hhost, hport, hparts.colon_mem_iff,
        colon_mem_part_iff hhost⟩
  · intro ip h
    have hliteral : IsLiteral text.toList (.v6 ip) := .v6 h
    obtain ⟨part, last, htext, hpart, hlast⟩ := h.exists_lastColon
    have hsolid : ∀ c ∈ part, isBlank c = false := by
      intro c hc
      refine hliteral.isBlank_eq_false c ?_
      rw [htext]
      exact List.mem_append_left _ hc
    have htrimmed := isTrimmed_of_forall hsolid
    obtain ⟨host, hhost⟩ := exists_isHost_iff htrimmed (List.ne_nil_of_mem hpart)
    have hpartHost : IsHost part host := (hhost host).2 rfl
    have hparts : HasParts text.toList part (':' :: last) := by
      have hopen : text.toList.head? ≠ some '[' := fun hhead =>
        hliteral.not_mem (by decide) (by decide) rfl (List.mem_of_head? hhead)
      rw [htext] at hopen ⊢
      exact .ported hopen hlast
    refine ⟨part, last, host, htext, hpartHost, hpartHost.colon_mem_iff.1 hpart, ?_, ?_⟩
    · intro e
      have htrim := (isTrimmed_of_forall hliteral.isBlank_eq_false).trim_eq
      rw [Endpoint.parse_eq_ok_iff, htrim, htext, isEndpoint_append_iff hlast,
        htrimmed.trim_eq, hhost]
    · intro other port
      rw [(divides_ipv6 h).exists_parse_iff hparts, htrimmed.trim_eq, hhost, isPort_cons_iff]

/-- An endpoint with an IPv6 address before its port, a location in which the last group of one is
the port, and an IPv6 address that has a name and a port in it. -/
theorem colons_inHosts_unbracketed :
    (∃ e, Endpoint.parse " 2001:db8::1:80" = .ok e ∧ ':' ∈ e.host.render.toList) ∧
    (∃ l part, Location.parse "rtsp://u:p@2001:db8::1/x:y" = .ok l ∧ IsHost (trim part) l.host ∧
      ':' ∈ part) ∧
    IsIpv6 "::1".toList ⟨0, 0, 0, 0, 0, 0, 0, 1⟩ ∧
    ∃ l, Location.parse "rtsp://::1" = .ok l ∧ l.host = .name ":" ∧ l.port = 1 := by
  have hread : Endpoint.parse " 2001:db8::1:80"
      = .ok ⟨.ipv6 ⟨0x2001, 0xdb8, 0, 0, 0, 0, 0, 1⟩, 80⟩ := by decide +kernel
  have hlread : Location.parse "rtsp://u:p@2001:db8::1/x:y"
      = .ok ⟨.name "2001:db8:", 1, "/x:y", "rtsp://u:p@2001:db8::1/x:y"⟩ := by decide +kernel
  have hip : IsIpv6 "::1".toList ⟨0, 0, 0, 0, 0, 0, 0, 1⟩ :=
    Ipv6.parse?_eq_some_iff.1 (by decide +kernel)
  have hname : Endpoint.parse "::1" = .ok ⟨.name ":", 1⟩ := by decide +kernel
  have htext : String.ofList (scheme ++ "::1".toList) = "rtsp://::1" := by decide +kernel
  refine ⟨⟨_, hread, ?_⟩, ?_, hip, ?_⟩
  · obtain ⟨part, digits, -, -, -, hcount, hhost⟩ :=
      (colons_inHosts " 2001:db8::1:80").1 _ hread
    exact hhost.1 (hcount.2 (by decide +kernel))
  · obtain ⟨authority, path, part, tail, -, -, hpart, -, -, hhost⟩ :=
      (colons_inHosts "rtsp://u:p@2001:db8::1/x:y").2.1 _ hlread
    exact ⟨_, part, hlread, hpart, hhost.2 (by decide +kernel)⟩
  · -- What the endpoint has for a host and a port the location has as well.
    obtain ⟨part, last, host, -, -, -, hread, hlread⟩ := (colons_inHosts "::1").2.2 _ hip
    obtain ⟨hhost, hport⟩ := (hread _).1 hname
    rw [← htext]
    exact (hlread _ _).2 ⟨hhost, hport⟩

/-- The text of an IPv6 address is read as a name and a port, so a host without brackets can have
colons in it. -/
theorem colons_taken :
    (IsIpv6 "::1".toList ⟨0, 0, 0, 0, 0, 0, 0, 1⟩ ∧
      Endpoint.parse "::1" = .ok ⟨.name ":", 1⟩) ∧
    ¬∀ (text : String) (e : Endpoint) (part digits : List Char), Endpoint.parse text = .ok e →
      trim text.toList = part ++ ':' :: digits → ':' ∉ digits →
      (∀ inner, trim part ≠ '[' :: (inner ++ [']'])) → ':' ∉ part := by
  have hread : Endpoint.parse "::1" = .ok ⟨.name ":", 1⟩ := by decide +kernel
  refine ⟨⟨Ipv6.parse?_eq_some_iff.1 (by decide +kernel), hread⟩, fun h => ?_⟩
  have hpart : trim [':'] = [':'] := by decide
  refine h _ _ [':'] ['1'] hread (by decide +kernel) (by decide) ?_ List.mem_cons_self
  rw [hpart]
  exact nofun

end MediaTransport.Rtsp
