import ArangeTun.Tunnels.Create
import ArangeTun.Tunnels.Load

/-!
# The files and the services of the tunnels

`Save` of internal/manage/config.go, `writeUnit` of systemd.go, `applySpec` and `revertSpec` of edit.go, `CreateTunnel`
of create.go and `UpdateTunnel` of edit_web.go.
-/

namespace ArangeTun.Tunnels

open Go

/-! ## internal/app/app.go -/

def configDir : Str := lit "/etc/arange-tun"

def serviceDir : Str := lit "/etc/systemd/system"

def binPath : Str := lit "/usr/local/bin/arange-tun"

def serviceName (name : Str) : Str := lit "arange-tun-" ++ name ++ lit ".service"

def configPath (name : Str) : Str := configDir ++ lit "/" ++ name ++ lit ".toml"

def unitPath (name : Str) : Str := serviceDir ++ lit "/" ++ serviceName name

/-! ## The machine under a call -/

/-- How `os.WriteFile` ends. When it fails, it may have left a part of the text, or nothing. -/
inductive Write
  | whole
  | broken (left : Option Str)
  deriving DecidableEq

def Write.left (text : Str) : Write → Option Str
  | .whole => some text
  | .broken left => left

/-- How systemctl ends: what it reports, and whether the unit runs afterwards. -/
structure Ctl where
  ok : Bool
  active : Bool
  deriving DecidableEq

structure World where
  files : Str → Option Str
  active : Str → Bool
  writes : List Str

namespace World

variable (w : World)

def write (path text : Str) (r : Write) : World :=
  { w with files := Function.update w.files path (r.left text), writes := w.writes ++ [path] }

def ctl (service : Str) (r : Ctl) : World := { w with active := Function.update w.active service r.active }

end World

structure Outcomes where
  mkdir : Bool := true
  config : Write := .whole
  unit : Write := .whole
  reload : Bool := true
  start : Ctl := ⟨true, true⟩
  read : Bool := true
  restart : Ctl := ⟨true, true⟩
  settled : Bool := true
  logLine : Str := []
  /-- The write of `applySpec` and `revertSpec` that puts the file back. -/
  restore : Write := .whole
  again : Ctl := ⟨true, true⟩
  stop : Ctl := ⟨true, false⟩

/-! ## internal/manage/systemd.go -/

def unitText (name : Str) : Str :=
  lit "[Unit]\nDescription=Arange-tun Tunnel (" ++ name ++ lit ")\nAfter=network.target\n\n" ++
    lit "[Service]\nType=simple\nExecStart=" ++ binPath ++ lit " -c " ++ configPath name ++
    lit "\nRestart=always\nRestartSec=3\nLimitNOFILE=1048576\n\n[Install]\nWantedBy=multi-user.target\n"

/-! ## internal/manage/config.go -/

inductive SaveError
  | mkdir
  | config
  | unit
  | reload
  | start
  deriving DecidableEq

def writeFiles (o : Outcomes) (w : World) (name text : Str) : World × Except SaveError Unit :=
  if o.mkdir = false then (w, .error .mkdir)
  else
    let w := w.write (configPath name) text o.config
    if o.config ≠ .whole then (w, .error .config)
    else
      let w := w.write (unitPath name) (unitText name) o.unit
      if o.unit ≠ .whole then (w, .error .unit)
      else if o.reload = false then (w, .error .reload)
      else (w, .ok ())

def save (o : Outcomes) (w : World) (name text : Str) : World × Except SaveError Unit :=
  match writeFiles o w name text with
  | (w, .error e) => (w, .error e)
  | (w, .ok ()) =>
    let w := w.ctl (serviceName name) o.start
    if o.start.ok then (w, .ok ()) else (w, .error .start)

section

variable (isPrint : Char → Bool) (m : Machine) (o : Outcomes) (w : World)

/-! ## internal/manage/edit.go -/

inductive ApplyError
  | read
  | save (err : SaveError)
  | restart
  | notUp (detail : Str)
  deriving DecidableEq

def revertSpec (path prev service : Str) (wasActive : Bool) : World :=
  let w := w.write path prev o.restore
  w.ctl service (if wasActive then o.again else o.stop)

def applySpec (s : TunnelSpec) : World × Except ApplyError Unit :=
  let path := configPath s.name
  let service := serviceName s.name
  match if o.read then w.files path else none with
  | none => (w, .error .read)
  | some prev =>
    let wasActive := w.active service
    match save o w s.name (s.render isPrint) with
    | (w, .error e) => (w.write path prev o.restore, .error (.save e))
    | (w, .ok ()) =>
      let w := w.ctl service o.restart
      if o.restart.ok = false then (revertSpec o w path prev service wasActive, .error .restart)
      else
        let w := w.ctl service ⟨true, o.settled⟩
        if o.settled then (w, .ok ())
        else (revertSpec o w path prev service wasActive, .error (.notUp o.logLine))

/-! ## internal/manage/create.go and edit_web.go -/

structure CreateResult where
  name : Str
  service : Str
  active : Bool
  token : Str
  deriving DecidableEq

inductive CreateError
  | exists (name : Str)
  | missing (name : Str)
  | build (err : BuildError)
  | save (err : SaveError)
  | restart
  deriving DecidableEq

def createResult (s : TunnelSpec) : CreateResult :=
  ⟨s.name, serviceName s.name, w.active (serviceName s.name), s.token⟩

def createTunnel (req : TunnelRequest) : World × Except CreateError CreateResult :=
  let name := trimSpace req.name
  if name ≠ [] ∧ (w.files (configPath name)).isSome then (w, .error (.exists name))
  else
    match buildSpec m req with
    | .error e => (w, .error (.build e))
    | .ok s =>
      match save o w s.name (s.render isPrint) with
      | (w, .error e) => (w, .error (.save e))
      | (w, .ok ()) => (w, .ok (createResult w s))

def updateTunnel (req : TunnelRequest) : World × Except CreateError CreateResult :=
  let name := trimSpace req.name
  if (w.files (configPath name)).isNone then (w, .error (.missing name))
  else
    match buildSpec m req with
    | .error e => (w, .error (.build e))
    | .ok s =>
      match save o w s.name (s.render isPrint) with
      | (w, .error e) => (w, .error (.save e))
      | (w, .ok ()) =>
        let w := w.ctl (serviceName s.name) o.restart
        -- the result comes with the error here, too
        if o.restart.ok then (w, .ok (createResult w s)) else (w, .error .restart)

end

end ArangeTun.Tunnels
