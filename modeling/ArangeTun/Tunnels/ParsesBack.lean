import ArangeTun.Tunnels.Lemmas.Build
import ArangeTun.Tunnels.Lemmas.Reload

/-! # The file of a tunnel that was accepted can be read -/

namespace ArangeTun.Tunnels

open Go Toml TunnelSpec

structure SameStrings (s : TunnelSpec) (c : Section) : Prop where
  token : c.str .token = s.token
  server : s.role = lit "server" → c.str .bindAddr = s.bindAddr ∧ c.strs .ports = s.ports
  client : s.role = lit "client" →
    c.str .remoteAddr = s.remoteAddr ∧ c.strs .fallbackAddrs = s.fallbackAddrs ∧ c.str .edgeIp = s.edgeIP ∧
      c.str .proxy = s.proxy ∧ c.str .localAddr = s.localAddr ∧ c.str .interface = s.interface
  spoof : c.str .spoofSrcIp = s.spoofSrcIP ∧ c.strs .spoofSrcPool = s.spoofSrcPool ∧
    c.str .spoofPeerIp = s.spoofPeerIP ∧ c.str .spoofPeerSrcIp = s.spoofPeerSrcIP ∧
      c.str .spoofInterface = s.spoofInterface
  pipe : s.spoofPipe = true → s.spoofPipeAddr ≠ [] → c.str .spoofPipeAddr = s.spoofPipeAddr
  pck : c.str .pckInterface = s.pckInterface ∧ c.str .pckGatewayMac = s.pckGatewayMAC

def TunnelSpec.part (s : TunnelSpec) (cfg : Config) : Section :=
  if s.role = lit "server" then cfg.server else cfg.client

/-- The rendered file is TOML, and has the strings of the tunnel in their fields. -/
def ParsesBack (isPrint : Char → Bool) (s : TunnelSpec) : Prop :=
  ∃ cfg, decode (s.render isPrint) = some cfg ∧ SameStrings s (s.part cfg)

variable {isPrint : Char → Bool} {m : Machine} {req : TunnelRequest} {s : TunnelSpec}

theorem kept_eq {α : Type} [Inhabited α] {c : Prop} [Decidable c] {x : α} (h : ¬ c → x = default) : kept c x = x := by
  unfold kept
  split
  · rfl
  · exact (h ‹_›).symm

theorem TunnelSpec.Made.sameStrings (h : s.Made) : SameStrings s (s.part s.config) := by
  have hedge : isWS s.transport ≠ true → s.edgeIP = default := fun hws => h.edge (Bool.eq_false_iff.mpr hws)
  have hspoof : s.transport ≠ lit "spoof" → s.spoofSrcIP = default ∧ s.spoofSrcPool = default ∧
      s.spoofPeerIP = default ∧ s.spoofPeerSrcIP = default ∧ s.spoofInterface = default ∧ s.spoofPipe = default := by
    intro hne
    have hall := h.spoof hne
    simp only [spoofing, mk.injEq] at hall
    simp only [hall]
    decide
  have hpck : s.transport ≠ lit "pck" → s.pckInterface = default ∧ s.pckGatewayMAC = default := by
    intro hne
    have hall := h.pck hne
    simp only [packet, mk.injEq] at hall
    simp only [hall]
    decide
  have hpipe : s.spoofPipe = true → s.transport = lit "spoof" := by
    intro hp
    by_contra hne
    rw [(hspoof hne).2.2.2.2.2] at hp
    cases hp
  have hne : lit "client" ≠ lit "server" := by decide +kernel
  obtain ⟨hrole, -⟩ | ⟨hrole, -⟩ := h.role
  · simp only [part, config, hrole, if_true]
    constructor
    all_goals
      simp only [str_sectionFor, strs_sectionFor, Key.serverPrints, if_true]
      dsimp only [item]
      simp +contextual [hrole, hne.symm, kept_eq, hspoof, hpck, hpipe]
  · simp only [part, config, hrole, hne, if_false]
    constructor
    all_goals
      simp only [str_sectionFor, strs_sectionFor, Key.clientPrints, if_true]
      dsimp only [item]
      simp +contextual [hrole, hne, kept_eq, hspoof, hpck, hpipe, hedge]

/-- The file of an accepted tunnel can be read, with the same strings in it, exactly when the strings are UTF-8 without
the control characters that TOML has no escape for. -/
theorem parsesBack_iff (h : buildSpec m req = .ok s) : ParsesBack isPrint s ↔ ∀ x ∈ s.strings, Quotable x := by
  have hmade := buildSpec_made h
  constructor
  · rintro ⟨cfg, hcfg, -⟩
    exact ((decode_render hmade.printable).mp hcfg).1
  · intro hq
    exact ⟨s.config, (decode_render hmade.printable).mpr ⟨hq, rfl⟩, hmade.sameStrings⟩

def clientRequest (token : Str) : TunnelRequest :=
  { name := lit "a", role := lit "client", transport := lit "tcp", token := token
    serverHost := lit "h", serverPort := lit "1" }

def clientOf (token : Str) : TunnelSpec :=
  (buildSpec .blank (clientRequest token)).toOption.getD {}

theorem parsesBack_of_letter :
    buildSpec .blank (clientRequest (lit "t")) = .ok (clientOf (lit "t")) ∧
      ParsesBack (fun _ => true) (clientOf (lit "t")) := by
  have hbuilt : buildSpec .blank (clientRequest (lit "t")) = .ok (clientOf (lit "t")) := by decide +kernel
  have hgraphic : ∀ x ∈ (clientOf (lit "t")).strings, ∀ b ∈ x, Graphic b := by decide +kernel
  exact ⟨hbuilt, (parsesBack_iff hbuilt).mpr fun x hx => quotable_of_graphic (hgraphic x hx)⟩

/-- The file of a tunnel whose token has a bell in it. -/
theorem bell_not_parsesBack :
    buildSpec .blank (clientRequest [0x61, 0x07, 0x61]) = .ok (clientOf [0x61, 0x07, 0x61]) ∧
      ¬ ParsesBack (fun _ => true) (clientOf [0x61, 0x07, 0x61]) := by
  have hbuilt : buildSpec .blank (clientRequest [0x61, 0x07, 0x61]) = .ok (clientOf [0x61, 0x07, 0x61]) := by
    decide +kernel
  refine ⟨hbuilt, ?_⟩
  rintro ⟨cfg, hcfg, -⟩
  have hmem : [0x61, 0x07, 0x61] ∈ (clientOf [0x61, 0x07, 0x61]).strings := by decide +kernel
  have hq := ((decode_render (buildSpec_made hbuilt).printable).mp hcfg).1 _ hmem
  have hbell : encodeRune (Char.ofNat 7) ++ [0x61] = [0x07, 0x61] := by decide
  rw [quotable_cons (by decide), ← hbell, quotable_rune] at hq
  exact absurd hq.1 (by decide)

end ArangeTun.Tunnels
