import MediaTransport.Proofs.Rtsp.Location

/-!
# Hosts read back

A host can come from its own text, from the text of an endpoint and from a location (`IsRead`).  The
three readers take it from different places, and each of them trims it and may take brackets off, but
what they give is the host of some text (`IsRead.exists_isHost`).  Nothing more is needed for it to
be written and read again, alone and in an endpoint (`hosts_readBack`).
-/

namespace MediaTransport.Rtsp

open Text Address

/-- A host that was read, from whichever text. -/
inductive IsRead : Host → Prop where
  | host {text : List Char} {host : Host} (h : Host.parse text = .ok host) : IsRead host
  | endpoint {text : String} {e : Endpoint} (h : Endpoint.parse text = .ok e) : IsRead e.host
  | location {text : String} {l : Location} (h : Location.parse text = .ok l) :
      IsRead l.endpoint.host

theorem IsLocation.exists_isHost {text : List Char} {l : Location} (h : IsLocation text l) :
    ∃ first, IsHost first l.endpoint.host := by
  cases h with
  | intro _ _ _ hhost _ _ => exact ⟨_, hhost⟩

theorem IsRead.exists_isHost {host : Host} (h : IsRead host) : ∃ text, IsHost text host := by
  cases h with
  | host h => exact ⟨_, Host.parse_eq_ok_iff.1 h⟩
  | endpoint h => exact (Endpoint.parse_eq_ok_iff.1 h).exists_isHost
  | location h => exact (Location.parse_eq_ok_iff.1 h).exists_isHost

/-- What was read and what stands for an address are written and read again, alone and with a port.
The text of an IPv6 address is the canonical one and stands in brackets before a port, and a name is
no literal, neither with brackets taken off nor with brackets around it. -/
theorem hosts_readBack :
    (∀ host, IsRead host → Host.parse host.render.toList = .ok host ∧
      ∀ port, Endpoint.parse (Endpoint.render ⟨host, port⟩) = .ok ⟨host, port⟩) ∧
    (∀ ip : Ip, Ip.parse? ip.render.toList = some ip ∧
      Host.parse ip.render.toList = .ok (.ofIp ip) ∧
      ∀ port, Endpoint.parse (Endpoint.render ⟨.ofIp ip, port⟩) = .ok ⟨.ofIp ip, port⟩) ∧
    (∀ ip : Ipv6, IsCanonical ip ip.render ∧
      ∀ port, Endpoint.render ⟨.ipv6 ip, port⟩ = "[" ++ ip.render ++ "]:" ++ toString port) ∧
    ∀ name, IsRead (.name name) → Ip.parse? name.toList = none ∧
      (∀ inner, name.toList = '[' :: (inner ++ [']']) → Ip.parse? inner = none) ∧
      Host.parse ('[' :: (name.toList ++ [']'])) = .ok (.name ("[" ++ name ++ "]")) := by
  refine ⟨?_, ?_, ?_, ?_⟩
  · intro host h
    obtain ⟨text, hhost⟩ := h.exists_isHost
    exact ⟨hhost.render.parse_eq, hhost.parse_render_endpoint⟩
  · intro ip
    have hhost := isHost_render ip
    exact ⟨Ip.parse?_eq_some_iff.2 (isLiteral_render ip), hhost.parse_eq,
      hhost.parse_render_endpoint⟩
  · exact fun ip => ⟨isCanonical_render ip, fun _ => rfl⟩
  · intro name h
    obtain ⟨text, hhost⟩ := h.exists_isHost
    have hname := hhost.isName
    refine ⟨hname.parse?_eq_none, ?_, ?_⟩
    · intro inner heq
      rw [Option.eq_none_iff_forall_ne_some]
      exact fun ip hip => hname.bracketed inner ip heq (Ip.parse?_eq_some_iff.1 hip)
    · rw [(IsHost.name hname.inBrackets).parse_eq]
      have hbrackets : String.ofList ('[' :: (name.toList ++ [']'])) = "[" ++ name ++ "]" := by
        rw [← String.toList_inj]
        simp
      rw [hbrackets]

/-- A name that starts with a bracket, from a location, and an IPv6 address with two runs of zero
groups of the same length, from an endpoint. -/
theorem hosts_readBack_brackets :
    (∃ l, Location.parse "rtsp://[[::1]/" = .ok l ∧ l.endpoint.render = "[::1:554" ∧
      Endpoint.parse "[::1:554" = .ok l.endpoint ∧ Ip.parse? "[::1".toList = none) ∧
    ∃ e, Endpoint.parse "[2001:0DB8:0:0:1:0:0:1]:080" = .ok e ∧
      e.render = "[2001:db8::1:0:0:1]:80" ∧ Endpoint.parse "[2001:db8::1:0:0:1]:80" = .ok e := by
  let l : Location := ⟨.name "[::1", 554, "/", "rtsp://[[::1]"⟩
  let e : Endpoint := ⟨.ipv6 ⟨0x2001, 0xDB8, 0, 0, 1, 0, 0, 1⟩, 80⟩
  have hlocation : Location.parse "rtsp://[[::1]/" = .ok l := by decide +kernel
  have hendpoint : Endpoint.parse "[2001:0DB8:0:0:1:0:0:1]:080" = .ok e := by decide +kernel
  obtain ⟨hagain, -, -, hname⟩ := hosts_readBack
  have hlread : IsRead (.name "[::1") := .location hlocation
  have heread : IsRead e.host := .endpoint hendpoint
  have hlrender : l.endpoint.render = "[::1:554" := by decide +kernel
  have herender : e.render = "[2001:db8::1:0:0:1]:80" := by decide +kernel
  refine ⟨⟨l, hlocation, hlrender, ?_, (hname _ hlread).1⟩, ⟨e, hendpoint, herender, ?_⟩⟩
  · rw [← hlrender]
    exact (hagain _ hlread).2 554
  · rw [← herender]
    exact (hagain _ heread).2 80

end MediaTransport.Rtsp
