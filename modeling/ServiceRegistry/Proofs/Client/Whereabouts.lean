/-
  ServiceRegistry.Proofs.Client.Whereabouts

  Where an instance is, as the scraper is told and as probes go there. Both write a host, a colon
  and a port, but the caller puts a host with colons in brackets and the scraper is told it
  without. So the two agree for names and for addresses of four bytes, which have no colons, and
  for no address of eight groups, in whatever spelling: what is published of it cannot be told
  from an address without a port.
-/
import ServiceRegistry.Client.Probe
import ServiceRegistry.Client.Registry
import ServiceRegistry.Proofs.Client.Wire
import ServiceRegistry.Proofs.Inventory.Shown
import ServiceRegistry.Proofs.Net.Colons
import ServiceRegistry.Server.Respond

namespace ServiceRegistry

open Message Net

/-! ## What is published -/

namespace ScrapeGroup

/-- The address of every candidate is published under its name. -/
theorem exists_mem_gathered {cs : List Candidate} {c : Candidate} (h : c ∈ cs) :
    ∃ g ∈ gathered cs, g.name = scrapeName c.serviceName ∧ c.endpoint.text ∈ g.addresses := by
  let named := cs.filter fun d => scrapeName d.serviceName = scrapeName c.serviceName
  refine ⟨⟨scrapeName c.serviceName, named.map (·.endpoint.text)⟩, ?_, rfl, ?_⟩
  · exact List.mem_map_of_mem (List.mem_eraseDups.2 (List.mem_map_of_mem h))
  · exact List.mem_map_of_mem (List.mem_filter.2 ⟨h, decide_eq_true rfl⟩)

end ScrapeGroup

namespace Client

/-! ## Hosts -/

/-- A name of the domain name system: letters, digits, hyphens, low lines, and dots. -/
def isDnsName (host : String) : Bool :=
  host ≠ "" && host.toList.all fun c => c.isAlphanum || c == '-' || c == '_' || c == '.'

theorem colon_not_mem_of_isDnsName {host : String} (h : isDnsName host = true) :
    ':' ∉ host.toList := by
  intro hcolon
  rw [isDnsName, Bool.and_eq_true, List.all_eq_true] at h
  exact absurd (h.2 ':' hcolon) (by decide)

/-! ## What is called -/

theorem authority_of_noColon {e : Endpoint} (h : ':' ∉ e.host.toList) :
    authority e = e.text := by
  have hfalse : ¬ e.host.toList.contains ':' = true := by rwa [List.contains_iff_mem]
  rw [authority, if_neg hfalse, Endpoint.text]

theorem authority_of_colon {e : Endpoint} (h : ':' ∈ e.host.toList) :
    authority e = "[" ++ e.host ++ "]:" ++ toString e.port.toNat := by
  rw [authority, if_pos (List.contains_iff_mem.2 h)]
  simp only [String.append_assoc]
  rfl

/-- The brackets make the difference. -/
theorem authority_eq_text_iff {e : Endpoint} : authority e = e.text ↔ ':' ∉ e.host.toList := by
  refine ⟨fun heq hcolon => ?_, authority_of_noColon⟩
  rw [authority_of_colon hcolon, Endpoint.text] at heq
  have hlength := congrArg String.length heq
  have hopen : "[".length = 1 := rfl
  have hclose : "]:".length = 2 := rfl
  have hcolon : ":".length = 1 := rfl
  simp only [String.length_append, hopen, hclose, hcolon] at hlength
  omega

theorem url_endpointCall (scheme : String) (e : Endpoint) (path : String) :
    (endpointCall scheme e path).url = scheme ++ "://" ++ authority e ++ path := rfl

theorem url_eq_iff {e : Endpoint} (path : String) :
    (endpointCall "https" e path).url = "https://" ++ e.text ++ path ↔ ':' ∉ e.host.toList := by
  have hscheme : "https" ++ "://" = "https://" := rfl
  rw [url_endpointCall, hscheme, String.append_left_inj, String.append_right_inj,
    authority_eq_text_iff]

/-- A probe is one call. -/
theorem run_probe (scheme : String) (c : Candidate) (w : Wire) :
    ((probe Wire.network scheme c).run w).2 =
      w.calling [endpointCall scheme c.endpoint namePath] := by
  rw [probe, Activity.run_bind, Wire.run_network]
  dsimp only
  split
  · rfl
  · split
    · rfl
    · split <;> rfl

/-! ## Both -/

/-- An instance that is to be scraped and probed. Its host and port are published under its name
    with a colon between them. A probe of it is one call, which goes to the address published
    exactly if there is no colon in the host: it does for every name and every address of four
    bytes, and does not for any address of eight groups, which is called in brackets. -/
theorem probed_where_scraped (inv : Inventory) (s : Service) (i : Instance)
    (hstored : (s, i) ∈ inv.stored) (hprobeable : i.isProbeable = true)
    (hvisible : i.isVisible = true) (w : Wire) :
    let c : Candidate := ⟨i.id, s.name, i.endpoint⟩
    let host := i.endpoint.host
    let port := toString i.endpoint.port.toNat
    let address := host ++ ":" ++ port
    c ∈ inv.candidates ∧
    (∃ g ∈ inv.scrapeGroups, g.name = scrapeName s.name ∧ address ∈ g.addresses) ∧
    ∃ call, ((probe Wire.network "https" c).run w).2.made = w.made ++ [call] ∧
      (call.url = "https://" ++ address ++ namePath ↔ ':' ∉ host.toList) ∧
      (isDnsName host = true ∨ (∃ x, Ip.ofText? host = some (.v4 x)) →
        call.url = "https://" ++ address ++ namePath) ∧
      ((∃ x, Ip.ofText? host = some (.v6 x)) →
        call.url ≠ "https://" ++ address ++ namePath ∧
          call.url = "https://" ++ ("[" ++ host ++ "]:" ++ port) ++ namePath) := by
  intro c host port address
  have hc : c ∈ inv.candidates :=
    Inventory.mem_candidates.2 ⟨s, i, hstored, hprobeable, hvisible, rfl⟩
  have hiff := url_eq_iff (e := i.endpoint) namePath
  refine ⟨hc, ?_, endpointCall "https" i.endpoint namePath, ?_, hiff, fun hkind => ?_, ?_⟩
  · rw [Inventory.scrapeGroups_eq]
    exact ScrapeGroup.exists_mem_gathered hc
  · rw [run_probe, Wire.calling_made]
  · rcases hkind with hname | ⟨x, hv4⟩
    · exact hiff.2 (colon_not_mem_of_isDnsName hname)
    · exact hiff.2 (colon_not_mem_of_v4 hv4)
  · rintro ⟨x, hv6⟩
    have hcolon := colon_mem_of_v6 hv6
    refine ⟨fun heq => hiff.1 heq hcolon, ?_⟩
    rw [url_endpointCall, authority_of_colon hcolon]
    rfl

/-- A service that announces its name, and whose probes so go where it is scraped. -/
theorem probed_where_scraped_named :
    let kv : Service := ⟨"kv.primary", none⟩
    let i : Instance := .enrolled 2 ⟨"node-1.internal", 9100⟩ [.tcp, .status] 1000
    let inv : Inventory := ⟨[⟨⟨"web", none⟩, [.enrolled 1 ⟨"::1", 80⟩ [.html] 0]⟩, ⟨kv, [i]⟩], 2⟩
    let w : Wire := { answers := fun _ => none }
    (kv, i) ∈ inv.stored ∧ i.isProbeable = true ∧ i.isVisible = true ∧
    isDnsName i.endpoint.host = true ∧
    ∃ call, ((probe Wire.network "https" ⟨2, "kv.primary", i.endpoint⟩).run w).2.made = [call] ∧
      call.url = "https://" ++ "node-1.internal:9100" ++ namePath := by
  intro kv i inv w
  have hstored : (kv, i) ∈ inv.stored := by decide
  have hname : isDnsName i.endpoint.host = true := by decide
  have haddress : i.endpoint.text = "node-1.internal:9100" := by decide
  obtain ⟨-, -, call, hcall, -, hagree, -⟩ :=
    probed_where_scraped inv kv i hstored (by decide) (by decide) w
  rw [← haddress]
  exact ⟨hstored, by decide, by decide, hname, call, hcall, hagree (.inl hname)⟩

/-- A service that announces no host and comes from an address of eight groups. It is probed in
    brackets. What the scraper is told of it reads as an address without a port. -/
theorem scraped_without_brackets :
    let registry : Handle := { origin := "http://registry" }
    let peer := Ip.ofText? "2001:db8::5"
    let register := (registry.call .register (RegisterRequest.toJson
      ⟨⟨"kv", none⟩, [⟨"", 9000, [.status]⟩]⟩)).request
    let w := ((Server.respond {} peer register).run { clock := 1000, unixTime := 0 }).2
    let probes := w.inventory.candidates.map fun c =>
      ((probe Wire.network "https" c).run { answers := fun _ => none }).2.made.map (·.url)
    w.inventory.stored.map (·.2.endpoint) = [⟨"2001:db8::5", 9000⟩] ∧
    w.inventory.scrapeGroups = [⟨"kv", ["2001:db8::5:9000"]⟩] ∧
    probes = [["https://[2001:db8::5]:9000" ++ namePath]] ∧
    (Ip.ofText? "2001:db8::5:9000").isSome = true := by
  decide +kernel

end Client

end ServiceRegistry
