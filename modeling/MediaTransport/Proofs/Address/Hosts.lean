import MediaTransport.Address.Endpoint
import MediaTransport.Proofs.Address.Compression

/-!
# Hosts and endpoints as texts

A trimmed text is a host when it is a literal, a literal in square brackets, or a name (`IsHost`).  A
name is any other text: no literal, and no brackets around one either (`IsName`).  Every text that is
not blank is one of these and of no two of them, and it is read as what it is (`Host.parse_eq_ok_iff`).

Since a name cannot be taken for a literal, the text of a host that was read is read as the same host
again (`IsHost.render`).  With a port behind it this holds too, because an IPv6 address then
stands in brackets and the port behind the last colon (`IsHost.parse_render_endpoint`).
-/

namespace MediaTransport.Address

open Text

/-! ## Hosts -/

/-- A text that stands for itself: it is no literal, and there is none in brackets in its place. -/
structure IsName (text : List Char) : Prop where
  /-- It is not empty. -/
  ne_nil : text ≠ []
  /-- It neither starts nor ends with a blank. -/
  trimmed : IsTrimmed text
  /-- It is no literal. -/
  literal : ∀ ip, ¬IsLiteral text ip
  /-- It is no literal in brackets. -/
  bracketed : ∀ inner ip, text = '[' :: (inner ++ [']']) → ¬IsLiteral inner ip

/-- What a trimmed text says of a host. -/
inductive IsHost : List Char → Host → Prop where
  | literal {text : List Char} {ip : Ip} (h : IsLiteral text ip) : IsHost text (.ofIp ip)
  | bracketed {text : List Char} {ip : Ip} (h : IsLiteral text ip) :
      IsHost ('[' :: (text ++ [']'])) (.ofIp ip)
  | name {text : List Char} (h : IsName text) : IsHost text (.name (String.ofList text))

theorem withoutBrackets_bracketed (inner : List Char) :
    withoutBrackets ('[' :: (inner ++ [']'])) = inner := by
  rw [withoutBrackets, afterOpening?, if_pos rfl, afterOpening?, Option.bind_some,
    beforeLast?_eq_some_iff.2 rfl, Option.getD_some]

/-- Without a bracket at both ends a text stays as it is. -/
theorem withoutBrackets_of_ne {text : List Char} (h : ∀ inner, text ≠ '[' :: (inner ++ [']'])) :
    withoutBrackets text = text := by
  have hnone : (afterOpening? ['['] text).bind (beforeLast? ']') = none := by
    rw [Option.eq_none_iff_forall_ne_some]
    intro inner hinner
    obtain ⟨rest, hrest, hlast⟩ := Option.bind_eq_some_iff.1 hinner
    rw [afterOpening?_eq_some_iff] at hrest
    rw [beforeLast?_eq_some_iff] at hlast
    exact h inner (by rw [hrest, hlast]; rfl)
  rw [withoutBrackets, hnone, Option.getD_none]

/-- No address is written in brackets: they belong to the text around it. -/
theorem IsLiteral.ne_bracketed {text : List Char} {ip : Ip} (h : IsLiteral text ip)
    (inner : List Char) : text ≠ '[' :: (inner ++ [']']) := by
  rintro rfl
  exact h.not_mem (by decide) (by decide) rfl List.mem_cons_self

/-- A name is never read as an address. -/
theorem IsName.parse?_eq_none {text : List Char} (h : IsName text) : Ip.parse? text = none := by
  rw [Option.eq_none_iff_forall_ne_some]
  exact fun ip hip => h.literal ip (Ip.parse?_eq_some_iff.1 hip)

/-- Brackets do not make a literal of a name. -/
theorem IsName.inBrackets {text : List Char} (h : IsName text) :
    IsName ('[' :: (text ++ [']'])) where
  ne_nil := List.cons_ne_nil _ _
  trimmed := by
    constructor
    · rintro _ ⟨⟩
      rfl
    · rw [← List.cons_append, List.getLast?_concat]
      rintro _ ⟨⟩
      rfl
  literal ip hip := hip.ne_bracketed text rfl
  bracketed inner ip heq := by
    rw [← List.append_cancel_right (List.cons.inj heq).2]
    exact h.literal ip

/-- A literal is read with or without brackets. -/
theorem parse?_withoutBrackets_eq_some_iff {text : List Char} {ip : Ip} :
    Ip.parse? (withoutBrackets text) = some ip ↔
      IsLiteral text ip ∨ ∃ inner, text = '[' :: (inner ++ [']']) ∧ IsLiteral inner ip := by
  rw [Ip.parse?_eq_some_iff]
  by_cases hbrackets : ∃ inner, text = '[' :: (inner ++ [']'])
  · obtain ⟨inner, rfl⟩ := hbrackets
    rw [withoutBrackets_bracketed]
    constructor
    · exact fun h => .inr ⟨inner, rfl, h⟩
    · rintro (h | ⟨other, heq, h⟩)
      · exact absurd rfl (h.ne_bracketed inner)
      · rwa [List.append_cancel_right (List.cons.inj heq).2]
  · rw [withoutBrackets_of_ne fun inner h => hbrackets ⟨inner, h⟩]
    constructor
    · exact .inl
    · rintro (h | ⟨inner, hinner, -⟩)
      · exact h
      · exact absurd ⟨inner, hinner⟩ hbrackets

/-- A text is no address when it is none as it stands and none inside brackets. -/
theorem parse?_withoutBrackets_eq_none_iff {text : List Char} :
    Ip.parse? (withoutBrackets text) = none ↔
      (∀ ip, ¬IsLiteral text ip) ∧
        ∀ inner ip, text = '[' :: (inner ++ [']']) → ¬IsLiteral inner ip := by
  rw [Option.eq_none_iff_forall_ne_some]
  simp only [Ne, parse?_withoutBrackets_eq_some_iff, not_or, not_exists, not_and, forall_and]
  exact and_congr_right fun _ => forall_comm

/-- A text that is not blank is a literal or a name. -/
theorem parse_of_trim_ne_nil {text : List Char} (h : trim text ≠ []) :
    Host.parse text = .ok (match Ip.parse? (withoutBrackets (trim text)) with
      | some ip => .ofIp ip
      | none => .name (String.ofList (trim text))) := by
  rw [Host.parse, if_neg (by simpa using h)]
  split <;> simp [*]

/-- There must be something to read. -/
theorem parse_of_trim_eq_nil {text : List Char} (h : trim text = []) :
    Host.parse text = .error (.invalidConfig .emptyAddress) := by
  rw [Host.parse, h]
  rfl

theorem IsHost.ne_nil {text : List Char} {host : Host} (h : IsHost text host) : text ≠ [] := by
  cases h with
  | literal h => exact h.ne_nil
  | bracketed h => exact List.cons_ne_nil _ _
  | name h => exact h.ne_nil

/-- Hosts have no blanks at their ends, so reading them back cuts nothing off. -/
theorem IsHost.isTrimmed {text : List Char} {host : Host} (h : IsHost text host) :
    IsTrimmed text := by
  cases h with
  | literal h => exact isTrimmed_of_forall h.isBlank_eq_false
  | bracketed h =>
    refine isTrimmed_of_forall (List.forall_mem_cons.2 ⟨rfl, List.forall_mem_append.2 ⟨?_, ?_⟩⟩)
    · exact h.isBlank_eq_false
    · simp [isBlank]
  | name h => exact h.trimmed

theorem IsHost.isName {text : List Char} {name : String} (h : IsHost text (.name name)) :
    IsName name.toList := by
  generalize hhost : Host.name name = host at h
  cases h with
  | @literal _ ip => cases ip <;> cases hhost
  | @bracketed _ ip => cases ip <;> cases hhost
  | name h =>
    cases hhost
    rwa [String.toList_ofList]

/-- A text is read as the host that it stands for without the blanks at its ends. -/
theorem Host.parse_eq_ok_iff {text : List Char} {host : Host} :
    Host.parse text = .ok host ↔ IsHost (trim text) host := by
  constructor
  · intro h
    by_cases hnil : trim text = []
    · rw [parse_of_trim_eq_nil hnil] at h
      cases h
    rw [parse_of_trim_ne_nil hnil, Except.ok.injEq] at h
    subst h
    split
    next ip hip =>
      obtain h | ⟨inner, heq, h⟩ := parse?_withoutBrackets_eq_some_iff.1 hip
      · exact .literal h
      · rw [heq]
        exact .bracketed h
    next hnone =>
      obtain ⟨hliteral, hbracketed⟩ := parse?_withoutBrackets_eq_none_iff.1 hnone
      exact .name ⟨hnil, isTrimmed_trim text, hliteral, hbracketed⟩
  · intro h
    rw [parse_of_trim_ne_nil h.ne_nil]
    generalize trim text = text at h
    cases h with
    | literal h => rw [parse?_withoutBrackets_eq_some_iff.2 (.inl h)]
    | bracketed h => rw [parse?_withoutBrackets_eq_some_iff.2 (.inr ⟨_, rfl, h⟩)]
    | name h => rw [parse?_withoutBrackets_eq_none_iff.2 ⟨h.literal, h.bracketed⟩]

/-- The only text that is refused is a blank one. -/
theorem Host.parse_eq_error_iff {text : List Char} {e : Error} :
    Host.parse text = .error e ↔ trim text = [] ∧ e = .invalidConfig .emptyAddress := by
  by_cases hnil : trim text = []
  · rw [parse_of_trim_eq_nil hnil]
    simp [hnil, eq_comm]
  · rw [parse_of_trim_ne_nil hnil]
    simp [hnil]

/-! ## Written hosts -/

/-- An address is written as one of its literals. -/
theorem isLiteral_render (ip : Ip) : IsLiteral ip.render.toList ip := by
  cases ip with
  | v4 ip => exact .v4 ip
  | v6 ip => exact .v6 (isIpv6_render ip)

theorem Host.render_ofIp (ip : Ip) : (Host.ofIp ip).render = ip.render := by
  cases ip <;> rfl

theorem isHost_render (ip : Ip) : IsHost ip.render.toList (.ofIp ip) :=
  .literal (isLiteral_render ip)

/-- What was read can be written and read again. -/
theorem IsHost.render {text : List Char} {host : Host} (h : IsHost text host) :
    IsHost host.render.toList host := by
  cases h with
  | @literal _ ip =>
    rw [Host.render_ofIp]
    exact isHost_render ip
  | @bracketed _ ip =>
    rw [Host.render_ofIp]
    exact isHost_render ip
  | name h =>
    rw [Host.render, String.toList_ofList]
    exact .name h

theorem IsHost.parse_eq {text : List Char} {host : Host} (h : IsHost text host) :
    Host.parse text = .ok host := by
  rw [Host.parse_eq_ok_iff, h.isTrimmed.trim_eq]
  exact h

/-! ## Endpoints -/

/-- An endpoint is a host and a port with a colon between them. -/
inductive IsEndpoint : List Char → Endpoint → Prop where
  | intro {first digits : List Char} {e : Endpoint} (hhost : IsHost (trim first) e.host)
      (hport : IsDecimal digits e.port.toNat) : IsEndpoint (first ++ ':' :: digits) e

theorem IsEndpoint.exists_isHost {text : List Char} {e : Endpoint} (h : IsEndpoint text e) :
    ∃ first, IsHost first e.host := by
  cases h with
  | intro hhost _ => exact ⟨_, hhost⟩

/-- An endpoint is read from the texts of its form, with blanks around them, and from no other. -/
theorem Endpoint.parse_eq_ok_iff {text : String} {e : Endpoint} :
    Endpoint.parse text = .ok e ↔ IsEndpoint (trim text.toList) e := by
  rw [Endpoint.parse]
  constructor
  · intro h
    split at h
    next => cases h
    next first digits hcut =>
      rw [(cutLast?_eq_some hcut).1]
      split at h
      next => cases h
      next port hport =>
        cases hhost : Host.parse first with
        | error => rw [hhost] at h; cases h
        | ok host =>
          rw [hhost] at h
          cases h
          exact .intro (Host.parse_eq_ok_iff.1 hhost) (readUInt16?_eq_some_iff.1 hport)
  · intro h
    generalize trim text.toList = trimmed at h
    cases h with
    | intro hhost hport =>
      rw [cutLast?_append (hport.not_mem rfl (by decide))]
      simp only [readUInt16?_eq_some_iff.2 hport, Host.parse_eq_ok_iff.2 hhost]
      rfl

theorem isDecimal_toString (n : UInt16) : IsDecimal (toString n).toList n.toNat :=
  readUInt16?_eq_some_iff.1 (readUInt16?_toString n)

/-- The text of a host before a port: an IPv6 address stands in brackets. -/
def beforePort : Host → List Char
  | .ipv6 ip => '[' :: (ip.render.toList ++ [']'])
  | host => host.render.toList

/-- A port stands behind the last colon.  A host with colons of its own has brackets. -/
theorem Endpoint.toList_render (host : Host) (port : UInt16) :
    (Endpoint.render ⟨host, port⟩).toList = beforePort host ++ ':' :: (toString port).toList := by
  cases host <;> simp [Endpoint.render, beforePort]

theorem IsHost.beforePort {text : List Char} {host : Host} (h : IsHost text host) :
    IsHost (beforePort host) host := by
  cases host with
  | ipv6 ip => exact .bracketed (isLiteral_render (.v6 ip))
  | ipv4 => exact h.render
  | name => exact h.render

/-- What was read can be written with a port behind it and read again. -/
theorem IsHost.parse_render_endpoint {text : List Char} {host : Host} (h : IsHost text host)
    (port : UInt16) : Endpoint.parse (Endpoint.render ⟨host, port⟩) = .ok ⟨host, port⟩ := by
  have hhost := h.beforePort
  have hdigits : ∀ c ∈ ':' :: (toString port).toList, isBlank c = false :=
    List.forall_mem_cons.2 ⟨rfl, fun c hc =>
      isBlank_of_isDigit (isDigit_of_mem_toString (n := port.toNat) hc)⟩
  have htrimmed := hhost.isTrimmed.append (isTrimmed_of_forall hdigits)
  rw [Endpoint.parse_eq_ok_iff, Endpoint.toList_render, htrimmed.trim_eq]
  refine .intro ?_ (isDecimal_toString port)
  rwa [hhost.isTrimmed.trim_eq]

end MediaTransport.Address
