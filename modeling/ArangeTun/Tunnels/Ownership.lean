import ArangeTun.Tunnels.Generated
import ArangeTun.Tunnels.Lemmas.Build
import ArangeTun.Tunnels.Lemmas.Save

/-! # Whose files a call writes -/

namespace ArangeTun.Tunnels

open Go Ports List Option

/-! ## internal/app/app.go -/

def webUIService : Str := lit "arange-tun-webui.service"

def monitorService : Str := lit "arange-tun-monitor.service"

def proxyService : Str := lit "arange-tun-proxy.service"

def programUnits : List Str := [webUIService, monitorService, proxyService].map (serviceDir ++ lit "/" ++ ·)

def programNames : List Str := [lit "webui", lit "monitor", lit "proxy"]

theorem programUnits_eq : programUnits = programNames.map unitPath := by decide +kernel

theorem unitPath_injective : Function.Injective unitPath := by
  intro a b h
  simp only [unitPath, serviceName, append_assoc, append_cancel_left_eq] at h
  exact append_cancel_right h

/-! ## The calls -/

inductive Op
  | createTunnel (req : TunnelRequest)
  | updateTunnel (req : TunnelRequest)
  | createWireGuardServer (name : Str) (listenPort : Int) (endpointHost dns egress : Str)
  | createWireGuardClient (name wgConfigText socksBind : Str) (socksPort : Int)
  | updateWireGuardServer (name : Str) (listenPort : Int) (egress : Str)
  | updateWireGuardClient (name wgConfigText socksBind : Str) (socksPort : Int)
  | createPacketServer (name : Str) (listenPort : Int) (key block : Str)
  | createPacketClient (name serverAddr key block : Str) (ports : List Str) (socks : Str)
  | updatePacketServer (name : Str) (listenPort : Int) (key block : Str)
  | updatePacketClient (name serverAddr key block : Str) (ports : List Str) (socks : Str)

namespace Op

def name : Op → Str
  | createTunnel req | updateTunnel req => trimSpace req.name
  | createWireGuardServer name .. | createWireGuardClient name .. | updateWireGuardServer name ..
  | updateWireGuardClient name .. | createPacketServer name .. | createPacketClient name ..
  | updatePacketServer name .. | updatePacketClient name .. => trimSpace name

def creates : Op → Bool
  | createTunnel _ | createWireGuardServer .. | createWireGuardClient .. | createPacketServer ..
  | createPacketClient .. => true
  | _ => false

def changes : Op → Option (Engine × Str)
  | updateWireGuardServer .. => some (.wireguard, lit "server")
  | updateWireGuardClient .. => some (.wireguard, lit "client")
  | updatePacketServer .. => some (.packet, lit "server")
  | updatePacketClient .. => some (.packet, lit "client")
  | _ => none

section

variable (isPrint : Char → Bool) (m : Machine) (x : Outside) (o : Outcomes) (w : World)

def run : Op → World
  | createTunnel req => (Tunnels.createTunnel isPrint m o w req).1
  | updateTunnel req => (Tunnels.updateTunnel isPrint m o w req).1
  | createWireGuardServer name listenPort endpointHost dns egress =>
    (Tunnels.createWireGuardServer isPrint x o w name listenPort endpointHost dns egress).1
  | createWireGuardClient name wgConfigText socksBind socksPort =>
    (Tunnels.createWireGuardClient isPrint x o w name wgConfigText socksBind socksPort).1
  | updateWireGuardServer name listenPort egress =>
    (Tunnels.updateWireGuardServer isPrint x o w name listenPort egress).1
  | updateWireGuardClient name wgConfigText socksBind socksPort =>
    (Tunnels.updateWireGuardClient isPrint x o w name wgConfigText socksBind socksPort).1
  | createPacketServer name listenPort key block =>
    (Tunnels.createPacketServer isPrint x o w name listenPort key block).1
  | createPacketClient name serverAddr key block ports socks =>
    (Tunnels.createPacketClient isPrint x o w name serverAddr key block ports socks).1
  | updatePacketServer name listenPort key block =>
    (Tunnels.updatePacketServer isPrint x o w name listenPort key block).1
  | updatePacketClient name serverAddr key block ports socks =>
    (Tunnels.updatePacketClient isPrint o w name serverAddr key block ports socks).1

def Holds (path : Str) (tunnel : Engine × Str) : Prop :=
  ∃ file, w.files path = some file ∧ (x.decode file).bind Sections.tunnel = some tunnel

/-- Each call writes only paths of a tunnel with a valid name, and over no other configuration. -/
structure OwnOnly (op : Op) (paths : List Str) : Prop where
  named : ∀ p ∈ paths, ∃ n, validName n = true ∧ (p = configPath n ∨ p = unitPath n)
  program : ∀ p ∈ paths, p ∉ programUnits
  created : op.creates = true → ∀ p ∈ paths, w.files p = none
  changed : ∀ tunnel ∈ op.changes, ∀ n, configPath n ∈ paths → Holds x w (configPath n) tunnel

def since (w' : World) : List Str := w'.writes.drop w.writes.length

/-- The call writes to its own tunnel only, whatever becomes of its steps. -/
def StaysOwn (op : Op) : Prop := ∀ o, op.OwnOnly x w (since w (op.run isPrint m x o w))

def Accepted : Op → Prop
  | createTunnel req => w.files (configPath (trimSpace req.name)) = none ∧ Passes (buildSpec m req)
  | updateTunnel req => w.files (configPath (trimSpace req.name)) ≠ none ∧ Passes (buildSpec m req)
  | createWireGuardServer name listenPort endpointHost _ _ =>
    validName (trimSpace name) = true ∧ find x w (trimSpace name) = none ∧ validListenPort listenPort ∧
      trimBrackets (trimSpace endpointHost) ≠ [] ∧ x.serverKeys ≠ none ∧ x.clientKeys ≠ none
  | createWireGuardClient name wgConfigText _ socksPort =>
    validName (trimSpace name) = true ∧ find x w (trimSpace name) = none ∧ validListenPort socksPort ∧
      Passes (WireGuard.parseClientConfig x.validKey wgConfigText)
  | updateWireGuardServer name listenPort _ =>
    (∃ cfg, loadTunnelConfig x w (trimSpace name) = some cfg ∧ cfg.wireGuard.role = lit "server") ∧
      validListenPort listenPort
  | updateWireGuardClient name wgConfigText _ socksPort =>
    (∃ cfg, loadTunnelConfig x w (trimSpace name) = some cfg ∧ cfg.wireGuard.role = lit "client") ∧
      validListenPort socksPort ∧
      (trimSpace wgConfigText ≠ [] → Passes (WireGuard.parseClientConfig x.validKey wgConfigText))
  | createPacketServer name listenPort key _ =>
    validName (trimSpace name) = true ∧ find x w (trimSpace name) = none ∧ packetPort listenPort = .ok () ∧
      (trimSpace key = [] → x.random ≠ none)
  | createPacketClient name serverAddr key block ports socks =>
    validName (trimSpace name) = true ∧ find x w (trimSpace name) = none ∧
      Passes (packetClientText isPrint (trimSpace name) serverAddr key block ports socks)
  | updatePacketServer name listenPort key _ =>
    w.files (configPath (trimSpace name)) ≠ none ∧ packetPort listenPort = .ok () ∧
      (trimSpace key = [] → currentKey x w (trimSpace name) ≠ [])
  | updatePacketClient name serverAddr key block ports socks =>
    w.files (configPath (trimSpace name)) ≠ none ∧
      Passes (packetClientText isPrint (trimSpace name) serverAddr key block ports socks)

/-- The name is valid and none of the program's; for a new tunnel there is neither a file nor a unit, and for a change the
file holds what is to be changed. -/
structure Own (op : Op) : Prop where
  name : validName op.name = true
  program : op.name ∉ programNames
  created : op.creates = true → w.files (configPath op.name) = none ∧ w.files (unitPath op.name) = none
  changed : ∀ tunnel ∈ op.changes, Holds x w (configPath op.name) tunnel

end

end Op

/-! ## What is written -/

section

variable {isPrint : Char → Bool} {m : Machine} {x : Outside} {o : Outcomes} {w : World} {op : Op} {name : Str}

def Outcomes.touched (o : Outcomes) (name : Str) : List Str :=
  if o.mkdir = false then [] else if o.config ≠ .whole then [configPath name] else [configPath name, unitPath name]

theorem mem_touched {p : Str} (hp : p ∈ o.touched name) : p = configPath name ∨ p = unitPath name := by
  unfold Outcomes.touched at hp
  split at hp
  · simp at hp
  split at hp
  · simp_all
  · simpa using hp

theorem touched_all (name : Str) : Outcomes.touched {} name = [configPath name, unitPath name] := rfl

theorem writeFiles_writes (text : Str) :
    (writeFiles o w name text).1.writes = w.writes ++ o.touched name := by
  unfold writeFiles Outcomes.touched
  by_cases hmkdir : o.mkdir = false
  · simp [hmkdir]
  by_cases hconfig : o.config = .whole
  case neg => simp [hmkdir, hconfig, World.write]
  by_cases hunit : o.unit = .whole
  case neg => simp [hmkdir, hconfig, hunit, World.write]
  by_cases hreload : o.reload = false
  · simp [hmkdir, hconfig, hunit, hreload, World.write]
  · simp [hmkdir, hconfig, hunit, hreload, World.write]

theorem save_writes (text : Str) : (save o w name text).1.writes = w.writes ++ o.touched name := by
  rw [← writeFiles_writes text]
  unfold save
  cases hfiles : writeFiles o w name text with
  | mk w' r =>
    cases r with
    | error e => rfl
    | ok u =>
      dsimp only
      split <;> rfl

theorem saveGeneratedTunnel_writes (text : Str) :
    (saveGeneratedTunnel o w name text).1.writes = w.writes ++ o.touched name := by
  rw [← writeFiles_writes text]
  unfold saveGeneratedTunnel
  cases hfiles : writeFiles o w name text with
  | mk w' r =>
    cases r with
    | error e => rfl
    | ok u =>
      dsimp only
      split <;> rfl

theorem saveAll_writes_ok {α : Type} {checked : Except GeneratedError (Str × α)} (h : Passes checked) :
    (saveAll o w name checked).1.writes = w.writes ++ o.touched name := by
  obtain ⟨⟨text, a⟩, rfl⟩ := h
  rw [← saveGeneratedTunnel_writes text]
  unfold saveAll
  cases hsave : saveGeneratedTunnel o w name text with
  | mk w' r => cases r <;> simp [hsave]

theorem saveAll_error {α : Type} {checked : Except GeneratedError (Str × α)} (h : ¬ Passes checked) :
    (saveAll o w name checked).1 = w := by
  cases checked with
  | error e => rfl
  | ok r => exact absurd passes_ok h

/-- A call that writes its two files when `c` holds, and nothing when it does not. -/
structure WritesWhen (o : Outcomes) (w : World) (name : Str) (c : Prop) (w' : World) : Prop where
  accepted : c → w'.writes = w.writes ++ o.touched name
  rejected : ¬ c → w' = w

theorem saveAll_writesWhen {α : Type} {checked : Except GeneratedError (Str × α)} {c : Prop}
    (h : Passes checked ↔ c) : WritesWhen o w name c (saveAll o w name checked).1 :=
  ⟨fun hc => saveAll_writes_ok (h.mpr hc), fun hc => saveAll_error fun hr => hc (h.mp hr)⟩

theorem newName_eq_ok : newName x w name = .ok () ↔ validName name = true ∧ find x w name = none := by
  simp only [newName, check_bind_eq_ok, require_eq_ok]

theorem passes_mapError {ε ε' α : Type} {f : ε → ε'} {r : Except ε α} : Passes (r.mapError f) ↔ Passes r := by
  cases r <;> simp [Except.mapError]

theorem loadWireGuard_eq_ok {wg : WireGuard.WireGuardConfig} :
    loadWireGuard x w name = .ok wg ↔ ∃ cfg, loadTunnelConfig x w name = some cfg ∧ cfg.wireGuard = wg := by
  unfold loadWireGuard
  cases loadTunnelConfig x w name <;> simp

theorem createTunnel_writesWhen (req : TunnelRequest) :
    WritesWhen o w (trimSpace req.name) (w.files (configPath (trimSpace req.name)) = none ∧ Passes (buildSpec m req))
      (createTunnel isPrint m o w req).1 := by
  unfold createTunnel
  cases hbuild : buildSpec m req with
  | error e =>
    refine ⟨fun h => absurd h.2 not_passes_error, fun _ => ?_⟩
    dsimp only
    split <;> rfl
  | ok s =>
    have hne : trimSpace req.name ≠ [] := by
      intro hnil
      have hvalid := (buildSpec_eq_ok hbuild).name
      rw [hnil] at hvalid
      exact absurd hvalid (by decide)
    cases hfile : w.files (configPath (trimSpace req.name)) with
    | some file =>
      refine ⟨fun h => absurd h.1 (some_ne_none _), fun _ => ?_⟩
      simp [hne, hfile]
    | none =>
      refine ⟨fun _ => ?_, fun h => absurd ⟨rfl, passes_ok⟩ h⟩
      dsimp only
      rw [if_neg (by simp [hfile]), ← buildSpec_name hbuild, ← save_writes (s.render isPrint)]
      cases hsave : save o w s.name (s.render isPrint) with
      | mk w' r => cases r <;> rfl

theorem updateTunnel_writesWhen (req : TunnelRequest) :
    WritesWhen o w (trimSpace req.name) (w.files (configPath (trimSpace req.name)) ≠ none ∧ Passes (buildSpec m req))
      (updateTunnel isPrint m o w req).1 := by
  unfold updateTunnel
  cases hfile : w.files (configPath (trimSpace req.name)) with
  | none => exact ⟨fun h => absurd rfl h.1, fun _ => by simp [hfile]⟩
  | some file =>
    cases hbuild : buildSpec m req with
    | error e => exact ⟨fun h => absurd h.2 not_passes_error, fun _ => by simp [hfile]⟩
    | ok s =>
      refine ⟨fun _ => ?_, fun h => absurd ⟨some_ne_none _, passes_ok⟩ h⟩
      dsimp only
      rw [if_neg (by simp [hfile]), ← buildSpec_name hbuild, ← save_writes (s.render isPrint)]
      cases hsave : save o w s.name (s.render isPrint) with
      | mk w' r =>
        cases r with
        | error e => rfl
        | ok u =>
          dsimp only
          split <;> rfl

theorem generateExitServer_ne_none {server client : Option WireGuard.Keypair} (port : Int) (host dns : Str) :
    WireGuard.generateExitServer server client port host dns ≠ none ↔ server ≠ none ∧ client ≠ none := by
  cases server <;> cases client <;> simp [WireGuard.generateExitServer]

theorem passes_clientConfig {wg : WireGuard.WireGuardConfig} {wgConfigText : Str} :
    Passes (clientConfig x wg wgConfigText) ↔
      (trimSpace wgConfigText ≠ [] → Passes (WireGuard.parseClientConfig x.validKey wgConfigText)) := by
  unfold clientConfig
  split <;> simp_all [passes_mapError]

theorem passes_keyOrRandom {key : Str} : Passes (keyOrRandom x key) ↔ (trimSpace key = [] → x.random ≠ none) := by
  unfold keyOrRandom randomKey
  split
  next hkey => cases x.random <;> simp [hkey]
  next hkey => simp [hkey]

theorem Op.run_writesWhen (op : Op) :
    WritesWhen o w op.name (op.Accepted isPrint m x w) (op.run isPrint m x o w) := by
  cases op with
  | createTunnel req => exact createTunnel_writesWhen req
  | updateTunnel req => exact updateTunnel_writesWhen req
  | createWireGuardServer name listenPort endpointHost dns egress =>
    apply saveAll_writesWhen
    rw [passes_check_bind, passes_check_bind, passes_check_bind, newName_eq_ok, require_eq_ok, require_eq_ok, and_assoc]
    refine and_congr_right' (and_congr_right' (and_congr_right' (and_congr_right' ?_)))
    rw [← generateExitServer_ne_none listenPort (trimBrackets (trimSpace endpointHost)) dns]
    split <;> simp_all
  | createWireGuardClient name wgConfigText socksBind socksPort =>
    apply saveAll_writesWhen
    rw [passes_check_bind, passes_check_bind, newName_eq_ok, require_eq_ok, and_assoc, passes_bind_pure,
      passes_mapError]
    rfl
  | updateWireGuardServer name listenPort egress =>
    apply saveAll_writesWhen
    rw [passes_bind]
    simp only [passes_check_bind, require_eq_ok, loadWireGuard_eq_ok, passes_pure, and_true, Op.Accepted]
    grind
  | updateWireGuardClient name wgConfigText socksBind socksPort =>
    apply saveAll_writesWhen
    rw [passes_bind]
    simp only [passes_check_bind, require_eq_ok, loadWireGuard_eq_ok, passes_bind_pure, passes_clientConfig, Op.Accepted]
    grind
  | createPacketServer name listenPort key block =>
    apply saveAll_writesWhen
    rw [passes_check_bind, passes_check_bind, newName_eq_ok, and_assoc, passes_bind_pure, passes_keyOrRandom]
    rfl
  | createPacketClient name serverAddr key block ports socks =>
    apply saveAll_writesWhen
    rw [passes_check_bind, newName_eq_ok, and_assoc, passes_bind_pure]
    rfl
  | updatePacketServer name listenPort key block =>
    apply saveAll_writesWhen
    rw [passes_check_bind, passes_check_bind, passes_check_bind, require_eq_ok, namedFile, require_eq_ok,
      isSome_iff_ne_none]
    refine and_congr_right' (and_congr_right' ?_)
    split <;> simp_all
  | updatePacketClient name serverAddr key block ports socks =>
    apply saveAll_writesWhen
    rw [passes_check_bind, passes_bind_pure, namedFile, require_eq_ok, isSome_iff_ne_none]
    rfl

theorem Op.since_of_accepted (h : op.Accepted isPrint m x w) :
    Op.since w (op.run isPrint m x o w) = o.touched op.name := by
  rw [Op.since, op.run_writesWhen.accepted h, drop_left]

theorem Op.since_of_rejected (h : ¬ op.Accepted isPrint m x w) : Op.since w (op.run isPrint m x o w) = [] := by
  rw [Op.since, op.run_writesWhen.rejected h, drop_length]

theorem Op.ownOnly_nil : op.OwnOnly x w [] := ⟨by simp, by simp, by simp, by simp⟩

theorem unitPath_mem_programUnits : unitPath name ∈ programUnits ↔ name ∈ programNames := by
  rw [programUnits_eq, List.mem_map_of_injective unitPath_injective]

theorem configPath_not_mem_programUnits : configPath name ∉ programUnits := by
  rw [programUnits_eq, List.mem_map]
  rintro ⟨n, -, h⟩
  exact configPath_ne_unitPath _ _ h.symm

theorem Op.Own.ownOnly (h : op.Own x w) : op.OwnOnly x w (o.touched op.name) where
  named p hp := ⟨op.name, h.name, mem_touched hp⟩
  program p hp := by
    obtain rfl | rfl := mem_touched hp
    · exact configPath_not_mem_programUnits
    · exact unitPath_mem_programUnits.not.mpr h.program
  created hcreates p hp := by
    obtain rfl | rfl := mem_touched hp
    · exact (h.created hcreates).1
    · exact (h.created hcreates).2
  changed tunnel htunnel n hn := by
    obtain heq | heq := mem_touched hn
    · rw [heq]
      exact h.changed tunnel htunnel
    · exact absurd heq (configPath_ne_unitPath _ _)

theorem Op.OwnOnly.own (h : op.OwnOnly x w [configPath op.name, unitPath op.name]) : op.Own x w where
  name := by
    obtain ⟨n, hvalid, heq | heq⟩ := h.named (unitPath op.name) (by simp)
    · exact absurd heq.symm (configPath_ne_unitPath _ _)
    · rwa [unitPath_injective heq]
  program := unitPath_mem_programUnits.not.mp (h.program _ (by simp))
  created hcreates := ⟨h.created hcreates _ (by simp), h.created hcreates _ (by simp)⟩
  changed tunnel htunnel := h.changed tunnel htunnel op.name (by simp)

theorem Op.StaysOwn.own (h : op.StaysOwn isPrint m x w) (haccepted : op.Accepted isPrint m x w) : op.Own x w := by
  have hown := h {}
  rw [Op.since_of_accepted haccepted, touched_all] at hown
  exact hown.own

/-- A call writes to its own tunnel only exactly when its checks turn the request away or the name is its own. -/
theorem op_staysOwn_iff (isPrint : Char → Bool) (m : Machine) (x : Outside) (w : World) (op : Op) :
    op.StaysOwn isPrint m x w ↔ (op.Accepted isPrint m x w → op.Own x w) := by
  constructor
  · exact Op.StaysOwn.own
  · intro h o
    by_cases haccepted : op.Accepted isPrint m x w
    · rw [Op.since_of_accepted haccepted]
      exact (h haccepted).ownOnly
    · rw [Op.since_of_rejected haccepted]
      exact Op.ownOnly_nil

def Outside.reading (c : Option Sections) : Outside where
  decode _ := c
  validKey _ := true
  serverKeys := none
  clientKeys := none
  random := none

theorem newServer_accepted {path : Str} (hname : validName (trimSpace name) = true) :
    (Op.createPacketServer name 9000 (lit "key") []).Accepted isPrint m (.reading none) (.one path [] true) := by
  refine ⟨hname, ?_, by decide +kernel, fun h => absurd h (by decide +kernel)⟩
  simp [find, loadTunnelConfig, Outside.reading]

theorem changedServer_accepted (name : Str) {c : Option Sections} :
    (Op.updatePacketServer name 9000 (lit "key") []).Accepted isPrint m (.reading c)
      (.one (configPath (trimSpace name)) [] true) := by
  refine ⟨?_, by decide +kernel, fun h => absurd h (by decide +kernel)⟩
  rw [World.one_files]
  exact some_ne_none _

/-- A new tunnel with the name of the panel, one with the name of a file that does not decode, a change of a file outside
the directory, and a change of a WireGuard tunnel to a packet server. -/
theorem foreign_files_written :
    ¬ (Op.createPacketServer (lit "webui") 9000 (lit "key") []).StaysOwn (fun _ => true) .blank (.reading none)
      (.one (unitPath (lit "webui")) [] true) ∧
    ¬ (Op.createPacketServer (lit "eu") 9000 (lit "key") []).StaysOwn (fun _ => true) .blank (.reading none)
      (.one (configPath (lit "eu")) [] true) ∧
    ¬ (Op.updatePacketServer (lit "../eu") 9000 (lit "key") []).StaysOwn (fun _ => true) .blank (.reading none)
      (.one (configPath (lit "../eu")) [] true) ∧
    ¬ (Op.updatePacketServer (lit "eu") 9000 (lit "key") []).StaysOwn (fun _ => true) .blank
      (.reading (some { wireGuard := { role := lit "client" } })) (.one (configPath (lit "eu")) [] true) := by
  refine ⟨fun h => ?_, fun h => ?_, fun h => ?_, fun h => ?_⟩
  · have hown := h.own (newServer_accepted (by decide +kernel))
    exact hown.program (by decide +kernel)
  · have hown := h.own (newServer_accepted (by decide +kernel))
    exact absurd (hown.created rfl).1 (by decide +kernel)
  · have hown := h.own (changedServer_accepted (lit "../eu"))
    exact absurd hown.name (by decide +kernel)
  · have hown := h.own (changedServer_accepted (lit "eu"))
    obtain ⟨file, -, htunnel⟩ := hown.changed _ rfl
    have hother : Sections.tunnel { wireGuard := { role := lit "client" } } = some (.packet, lit "server") := htunnel
    exact absurd hother (by decide +kernel)

end

end ArangeTun.Tunnels
