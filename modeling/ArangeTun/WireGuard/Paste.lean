import ArangeTun.Go.Net
import ArangeTun.Ports.Lemmas.Target
import ArangeTun.Tunnels.Generated
import ArangeTun.Tunnels.Lemmas.Reload

/-!
# From a pasted configuration to the device

`clientUAPI` and `resolveEndpoint` of internal/wireguard/wg.go, on what is read back of the file that `wgRenderClient`
writes for a pasted text.
-/

namespace ArangeTun.WireGuard

open Go Ports Toml Tunnels List ParsedClient TunnelSpec

/-! ## internal/wireguard/wg.go -/

inductive UAPIError
  | privateKey
  | publicKey
  | presharedKey
  deriving DecidableEq

section

-- `wgtypes.ParseKey` and `net.LookupHost`
variable (parseKey : Str → Option Str) (lookupHost : Str → Option (List Str))

def keyHex (b64 : Str) : Option Str := (parseKey (trimSpace b64)).map fun k => k.flatMap fun b => hex 2 b.toNat

def resolveEndpoint (ep : Str) : Option Str :=
  match splitHostPort ep with
  | none => none
  | some (host, port) =>
    if parseIP host ≠ none then some ep
    else
      match lookupHost host with
      | some (ip :: _) => some (joinHostPort ip port)
      | _ => none

def Amnezia.settings (a : Amnezia) : List (Str × Str) :=
  [(lit "jc", itoa a.jc), (lit "jmin", itoa a.jmin), (lit "jmax", itoa a.jmax), (lit "s1", itoa a.s1),
    (lit "s2", itoa a.s2), (lit "h1", itoa a.h1.toNat), (lit "h2", itoa a.h2.toNat), (lit "h3", itoa a.h3.toNat),
    (lit "h4", itoa a.h4.toNat)]

def presharedLine (key : Str) : Except UAPIError (List (Str × Str)) :=
  if trimSpace key = [] then .ok []
  else (keyHex parseKey key).elim (.error .presharedKey) fun psk => .ok [(lit "preshared_key", psk)]

def clientUAPI (wc : WireGuardConfig) : Except UAPIError (List (Str × Str)) := do
  let priv ← (keyHex parseKey wc.clientPrivateKey).elim (.error .privateKey) .ok
  let pub ← (keyHex parseKey wc.peerPublicKey).elim (.error .publicKey) .ok
  let psk ← presharedLine parseKey wc.presharedKey
  let ep := trimSpace wc.endpoint
  let ka := if wc.keepalive ≤ 0 then 25 else wc.keepalive
  let allowed := if trimSpace wc.allowedIPs = [] then lit "0.0.0.0/0, ::/0" else trimSpace wc.allowedIPs
  return [(lit "private_key", priv)] ++ (if 0 < wc.jc then wc.settings else []) ++ [(lit "public_key", pub)] ++ psk ++
    (if ep = [] then [] else [(lit "endpoint", (resolveEndpoint lookupHost ep).getD ep)]) ++
    [(lit "persistent_keepalive_interval", itoa ka)] ++
    (((split allowed (byte ',')).map trimSpace).filter (· ≠ [])).map fun a => (lit "allowed_ip", a)

end

/-! ## The file -/

section

variable (d : Doc)

def strAt (key : String) : Str := strOf (d.lookup (lit "wireguard") (lit key))

def intAt (key : String) : Int := intOf (d.lookup (lit "wireguard") (lit key))

/-- What `clientUAPI` reads of the table `wireguard` of a file, by the tags of `WireGuardConfig`. -/
def clientOf : WireGuardConfig where
  clientPrivateKey := strAt d "client_private_key"
  peerPublicKey := strAt d "peer_public_key"
  presharedKey := strAt d "preshared_key"
  endpoint := strAt d "endpoint"
  allowedIPs := strAt d "allowed_ips"
  keepalive := intAt d "keepalive"
  jc := intAt d "jc"
  jmin := intAt d "jmin"
  jmax := intAt d "jmax"
  s1 := intAt d "s1"
  s2 := intAt d "s2"
  h1 := .ofNat (intAt d "h1").toNat
  h2 := .ofNat (intAt d "h2").toNat
  h3 := .ofNat (intAt d "h3").toNat
  h4 := .ofNat (intAt d "h4").toNat

end

section

variable (pc : ParsedClient) (bind : Str) (port : Int)

def ParsedClient.texts : List Str :=
  [pc.privateKey, pc.address, pc.dns, pc.peerPublicKey, pc.presharedKey, pc.endpoint, pc.allowedIPs, bind]

def ParsedClient.items : List (Str × Option Value) :=
  let amnezia n := within (0 < pc.jc) (some (.int n))
  [(lit "role", some (.str (lit "client"))), (lit "client_private_key", some (.str pc.privateKey)),
    (lit "client_address", some (.str pc.address)), (lit "dns", nonempty pc.dns), (lit "mtu", positive pc.mtu),
    (lit "peer_public_key", some (.str pc.peerPublicKey)), (lit "preshared_key", nonempty pc.presharedKey),
    (lit "endpoint", some (.str pc.endpoint)), (lit "allowed_ips", nonempty pc.allowedIPs),
    (lit "keepalive", positive pc.keepalive), (lit "jc", amnezia pc.jc), (lit "jmin", amnezia pc.jmin),
    (lit "jmax", amnezia pc.jmax), (lit "s1", amnezia pc.s1), (lit "s2", amnezia pc.s2),
    (lit "h1", amnezia pc.h1.toNat), (lit "h2", amnezia pc.h2.toNat), (lit "h3", amnezia pc.h3.toNat),
    (lit "h4", amnezia pc.h4.toNat), (lit "socks_bind", some (.str bind)), (lit "socks_port", some (.int port))]

def written (items : List (Str × Option Value)) : List (Str × Value) :=
  items.flatMap fun i => (i.2.map (i.1, ·)).toList

theorem keys_items : ((pc.items bind port).map Prod.fst).Nodup := by
  simp only [items, map_cons, map_nil]
  decide

theorem map_nonempty (key : String) (s : Str) :
    ((nonempty s).map (lit key, ·)).toList.map (fun kv => Line.entry kv.1 kv.2) = optEntry key s := by
  unfold nonempty within optEntry
  by_cases h : s = []
  · simp [h]
  · simp [h, strEntry]

theorem map_positive (key : String) (n : Int) :
    ((positive n).map (lit key, ·)).toList.map (fun kv => Line.entry kv.1 kv.2) = posEntry key n := by
  unfold positive within posEntry
  by_cases h : 0 < n
  · simp [h, intEntry]
  · simp [h]

theorem wgRenderClient_eq (isPrint : Char → Bool) (name : Str) : wgRenderClient isPrint name pc bind port =
    text isPrint (generatedHeader isPrint name ++ .header (lit "wireguard") ::
      (written (pc.items bind port)).map fun kv => .entry kv.1 kv.2) := by
  unfold wgRenderClient
  refine congrArg (text isPrint) ?_
  by_cases hjc : 0 < pc.jc
  all_goals
    simp only [written, items, flatMap_cons, flatMap_nil, map_append, map_nonempty, map_positive, within,
      hjc, if_true, if_false, append_assoc]
    rfl

theorem lookup_written {items : List (Str × Option Value)} {key : Str} {o : Option Value}
    (hnd : (items.map Prod.fst).Nodup) (h : (key, o) ∈ items) (table : Str) :
    Doc.lookup ⟨[table], (written items).map fun kv => ((table, kv.1), kv.2)⟩ table key = o := by
  have hnone {items : List (Str × Option Value)} (hk : key ∉ items.map Prod.fst) :
      (written items).find? (fun kv => decide (kv.1 = key)) = none := by
    rw [find?_eq_none]
    intro kv hkv
    obtain ⟨i, hi, hkv⟩ := mem_flatMap.mp hkv
    obtain ⟨v, -, rfl⟩ := Option.mem_map.mp (Option.mem_toList.mp hkv)
    rw [decide_eq_true_eq]
    rintro rfl
    exact hk (mem_map_of_mem hi)
  simp only [Doc.lookup, find?_map, Function.comp_def, Prod.mk.injEq, true_and, Option.map_map]
  induction items with
  | nil => cases h
  | cons i items ih =>
    obtain ⟨hi, hnd⟩ := nodup_cons.mp hnd
    rw [written, flatMap_cons, find?_append, ← written]
    obtain rfl | h := mem_cons.mp h
    · cases o with
      | none => simpa using hnone hi
      | some v => simp
    · have hne : i.1 ≠ key := fun he => hi (he ▸ mem_map_of_mem h)
      have hskip : (i.2.map (i.1, ·)).toList.find? (fun kv => decide (kv.1 = key)) = none := by
        cases i.2 <;> simp [hne]
      rw [hskip, Option.none_or]
      exact ih hnd h

def ParsedClient.applied : WireGuardConfig where
  toAmnezia := if 0 < pc.jc then pc.toAmnezia else {}
  clientPrivateKey := pc.privateKey
  peerPublicKey := pc.peerPublicKey
  presharedKey := pc.presharedKey
  endpoint := pc.endpoint
  allowedIPs := pc.allowedIPs
  keepalive := max pc.keepalive 0

theorem escape_name {isPrint : Char → Bool} {name : Str} (h : ∀ b ∈ name, nameByte b = true) :
    escape isPrint 0 name = name := by
  induction name with
  | nil => rfl
  | cons b name ih =>
    obtain ⟨hb, h⟩ := forall_mem_cons.mp h
    obtain ⟨hlo, hhi⟩ := nameByte_bounds hb
    have htoNat : (Char.ofUInt8 b).toNat = b.toNat := UInt8.toNat_toUInt32 b
    have henc : encodeRune (Char.ofUInt8 b) = [b] := by rw [encodeRune_ascii (by omega), htoNat, UInt8.ofNat_toNat]
    have hne {e : Char} (he : Char.ofUInt8 b = e) : b.toNat = e.toNat := by rw [← htoNat, he]
    have hback : b ≠ 92 := by
      rintro rfl
      exact absurd hb (by decide)
    have hesc : escapeRune isPrint (Char.ofUInt8 b) = [b] := by
      unfold escapeRune
      rw [if_neg fun he => absurd (hne he) (Nat.ne_of_gt (Nat.lt_of_lt_of_le (by decide) hlo)),
        if_neg fun he => hback (UInt8.toNat_inj.mp ((hne he).trans rfl)), if_pos, henc]
      simp only [printable, htoNat, if_pos (show b.toNat < 0x80 by omega), decide_eq_true_eq]
      omega
    rw [← singleton_append, ← henc, escape_rune, ih h, hesc, henc]

theorem generatedHeader_wf {isPrint : Char → Bool} {name : Str} (h : validName name = true) :
    ∀ l ∈ generatedHeader isPrint name, l.WF ∧ l.strings = [] ∧ ∀ σ : State, l.read σ = some σ := by
  have hname : ∀ b ∈ name, ¬ Control b ∧ b ≠ newline :=
    fun b hb => ordinary_of_nameByte (nameByte_of_mem h hb)
  have hfixed : ∀ u ∈ [lit " Generated by arange-tun " ++ [0xe2, 0x80, 0x94] ++
      lit " do not edit while the service is running.", lit " name = ", lit "\""],
      ∀ b ∈ u, ¬ Control b ∧ b ≠ newline := by decide
  simp only [generatedHeader, mem_cons, not_mem_nil, or_false]
  rintro l (rfl | rfl | rfl)
  · exact ⟨hfixed _ (by simp), rfl, fun σ => rfl⟩
  · refine ⟨?_, rfl, fun σ => rfl⟩
    rw [quote, escape_name fun b hb => nameByte_of_mem h hb]
    simp only [Line.WF, forall_mem_append, forall_mem_cons]
    exact ⟨hfixed (lit " name = ") (by simp), ⟨hfixed (lit "\"") (by simp) _ (by decide), hname⟩,
      hfixed (lit "\"") (by simp) _ (by decide), forall_mem_nil _⟩
  · exact ⟨trivial, rfl, fun σ => rfl⟩

theorem keys_written (items : List (Str × Option Value)) :
    ((written items).map Prod.fst).Sublist (items.map Prod.fst) := by
  induction items with
  | nil => exact .slnil
  | cons i items ih =>
    obtain ⟨key, o⟩ := i
    cases o with
    | none => exact ih.cons key
    | some v => exact ih.cons_cons key

theorem parse_render {isPrint : Char → Bool} {name : Str} (hname : validName name = true)
    (hq : ∀ x ∈ pc.texts bind, Quotable x) : ∃ d, parse (wgRenderClient isPrint name pc bind port) = some d ∧
      ∀ i ∈ pc.items bind port, d.lookup (lit "wireguard") i.1 = i.2 := by
  have hbare : ∀ key ∈ (pc.items bind port).map Prod.fst, key ≠ [] ∧ ∀ b ∈ key, Bare b := by
    simp only [items, map_cons, map_nil]
    decide
  have htable : lit "wireguard" ≠ [] ∧ ∀ b ∈ lit "wireguard", Bare b := by decide
  have hquoted : ∀ i ∈ pc.items bind port, ∀ v ∈ i.2, ∀ x ∈ v.strings, Quotable x := by
    simp only [texts, forall_mem_cons] at hq
    have hrole : Quotable (lit "client") := quotable_of_graphic (by decide)
    simp [items, nonempty, positive, within, Value.strings, hq, hrole]
  refine ⟨_, ?_, fun i hi => lookup_written (keys_items pc bind port) hi (lit "wireguard")⟩
  rw [wgRenderClient_eq]
  refine (@parse_table isPrint Str id (fun kv => .entry kv.1 kv.2) _ _ _ _
    (fun l hl => (generatedHeader_wf hname l hl).2) (fun kv => rfl) ?_).mpr
    ⟨?_, (keys_items pc bind port).sublist (keys_written _), rfl⟩
  · simp only [forall_mem_append, forall_mem_cons, List.forall_mem_map]
    exact ⟨fun l hl => (generatedHeader_wf hname l hl).1, htable,
      fun kv hkv => hbare _ ((keys_written _).subset (mem_map_of_mem hkv))⟩
  · intro kv hkv
    obtain ⟨i, hi, hkv⟩ := mem_flatMap.mp hkv
    obtain ⟨v, hv, rfl⟩ := Option.mem_map.mp (Option.mem_toList.mp hkv)
    exact hquoted i hi v hv

theorem clientOf_render {isPrint : Char → Bool} {name : Str} (hname : validName name = true)
    (hq : ∀ x ∈ pc.texts bind, Quotable x) :
    (parse (wgRenderClient isPrint name pc bind port)).map clientOf = some pc.applied := by
  obtain ⟨d, hparse, hlook⟩ := @parse_render pc bind port isPrint name hname hq
  simp only [items, forall_mem_cons] at hlook
  rw [hparse, Option.map_some]
  by_cases hjc : 0 < pc.jc
  all_goals
    simp only [clientOf, strAt, intAt, hlook, strOf_nonempty, intOf_positive, within, hjc, if_true, if_false,
      applied]
    simp [strOf, intOf]

end

/-! ## The text -/

section

def header (line : Str) : Option Str :=
  let line := trimSpace line
  if line.head? = some (byte '[') ∧ line.getLast? = some (byte ']') then some (sectionName line) else none

def entry (line : Str) : Option (Str × Str) :=
  let line := trimSpace line
  if line = [] ∨ line.head? = some (byte '#') then none
  else
    match cut line (byte '=') with
    | (_, _, false) => none
    | (key, val, true) => some (toLower (trimSpace key), trimSpace val)

def ParsedClient.assign (pc : ParsedClient) (sec : Str) (e : Str × Str) : ParsedClient :=
  if sec = lit "interface" then pc.setInterface e.1 e.2
  else if sec = lit "peer" then pc.setPeer e.1 e.2
  else pc

def peerSections : List Str → List (List Str)
  | [] => []
  | line :: lines =>
    if header line = some (lit "peer") then lines.takeWhile (header · = none) :: peerSections lines
    else peerSections lines

def ParsedClient.peerFields (pc : ParsedClient) : Str × Str × Str × Str × Int :=
  (pc.peerPublicKey, pc.presharedKey, pc.endpoint, pc.allowedIPs, pc.keepalive)

def sectionFields (lines : List Str) := (lines.foldl parseLine (lit "peer", {})).2.peerFields

variable {sec line : Str} {lines : List Str} {pc pc' : ParsedClient}

theorem parseLine_eq (st : Str × ParsedClient) (line : Str) : parseLine st line =
    match header line with
    | some sec => (sec, st.2)
    | none => (st.1, (entry line).elim st.2 (st.2.assign st.1)) := by
  unfold parseLine header entry assign
  by_cases hempty : trimSpace line = [] ∨ (trimSpace line).head? = some (byte '#')
  · have hno : ¬ ((trimSpace line).head? = some (byte '[') ∧ (trimSpace line).getLast? = some (byte ']')) := by
      rintro ⟨hopen, -⟩
      obtain h | h := hempty
      · rw [h] at hopen
        cases hopen
      · rw [h] at hopen
        exact absurd hopen (by decide)
    simp [hempty, hno]
  · by_cases hopen : (trimSpace line).head? = some (byte '[') ∧ (trimSpace line).getLast? = some (byte ']')
    · simp only [if_neg hempty, if_pos hopen]
    · simp only [hempty, hopen, if_false]
      obtain ⟨key, val, found⟩ := cut (trimSpace line) (byte '=')
      cases found
      · rfl
      · dsimp only [Option.elim_some]
        split_ifs <;> rfl

theorem peerFields_assign (hsec : sec ≠ lit "peer") (e : Str × Str) : (pc.assign sec e).peerFields = pc.peerFields := by
  simp only [assign, setInterface, if_neg hsec, apply_ite peerFields]
  simp only [peerFields, ite_self]

theorem peerFields_congr (h : pc.peerFields = pc'.peerFields) (e : Str × Str) :
    (pc.assign (lit "peer") e).peerFields = (pc'.assign (lit "peer") e).peerFields := by
  simp only [peerFields, Prod.mk.injEq] at h
  have hne : lit "peer" ≠ lit "interface" := by decide
  simp only [assign, setPeer, if_neg hne, if_true, apply_ite peerFields]
  simp only [peerFields, h]

theorem parseLine_outside (hsec : sec ≠ lit "peer") (hline : header line ≠ some (lit "peer")) (pc : ParsedClient) :
    ∃ sec' pc', parseLine (sec, pc) line = (sec', pc') ∧ sec' ≠ lit "peer" ∧ pc'.peerFields = pc.peerFields := by
  rw [parseLine_eq]
  cases hheader : header line with
  | some sec' => exact ⟨sec', pc, rfl, fun he => hline (hheader.trans (congrArg some he)), rfl⟩
  | none =>
    refine ⟨sec, _, rfl, hsec, ?_⟩
    cases entry line with
    | none => rfl
    | some e => exact peerFields_assign hsec e

theorem peerFields_outside (hsec : sec ≠ lit "peer") (h : peerSections lines = []) :
    (lines.foldl parseLine (sec, pc)).2.peerFields = pc.peerFields := by
  induction lines generalizing sec pc with
  | nil => rfl
  | cons line lines ih =>
    rw [peerSections] at h
    split at h
    · cases h
    next hline =>
      obtain ⟨sec', pc', hparse, hsec', hpc⟩ := parseLine_outside hsec hline pc
      rw [foldl_cons, hparse]
      exact (ih hsec' h).trans hpc

theorem peerFields_inside (hpc : pc.peerFields = pc'.peerFields) (h : peerSections lines = []) :
    (lines.foldl parseLine (lit "peer", pc)).2.peerFields =
      ((lines.takeWhile (header · = none)).foldl parseLine (lit "peer", pc')).2.peerFields := by
  induction lines generalizing pc pc' with
  | nil => exact hpc
  | cons line lines ih =>
    rw [peerSections] at h
    split at h
    · cases h
    next hline =>
      rw [foldl_cons, parseLine_eq]
      cases hheader : header line with
      | some sec =>
        rw [takeWhile_cons_of_neg (by simp [hheader])]
        exact (peerFields_outside (fun he => hline (hheader.trans (congrArg some he))) h).trans hpc
      | none =>
        rw [takeWhile_cons_of_pos (by simp [hheader]), foldl_cons, parseLine_eq, hheader]
        refine ih ?_ h
        cases entry line with
        | none => exact hpc
        | some e => exact peerFields_congr hpc e

theorem peerFields_of_one {peer : List Str} (hsec : sec ≠ lit "peer")
    (hpc : pc.peerFields = ({} : ParsedClient).peerFields) (h : peerSections lines = [peer]) :
    (lines.foldl parseLine (sec, pc)).2.peerFields = sectionFields peer := by
  induction lines generalizing sec pc with
  | nil => cases h
  | cons line lines ih =>
    rw [peerSections] at h
    split at h
    next hline =>
      obtain ⟨rfl, hnone⟩ := cons.inj h
      rw [foldl_cons, parseLine_eq, hline]
      exact peerFields_inside hpc hnone
    next hline =>
      obtain ⟨sec', pc', hparse, hsec', hpc'⟩ := parseLine_outside hsec hline pc
      rw [foldl_cons, hparse]
      exact ih hsec' (hpc'.trans hpc) h

def allowedLine (line : Str) : Option Str :=
  (entry line).bind fun e => if e.1 = lit "allowedips" then some e.2 else none

def allowedLines (lines : List Str) : List Str := lines.filterMap allowedLine

theorem header_of_mem_peerSections {peer : List Str} (h : peer ∈ peerSections lines) :
    ∀ line ∈ peer, header line = none := by
  induction lines with
  | nil => cases h
  | cons line lines ih =>
    rw [peerSections] at h
    split at h
    · rcases mem_cons.mp h with rfl | h
      · exact fun line hl => by simpa using mem_takeWhile_imp hl
      · exact ih h
    · exact ih h

theorem allowedIPs_assign (e : Str × Str) :
    (pc.assign (lit "peer") e).allowedIPs = if e.1 = lit "allowedips" then e.2 else pc.allowedIPs := by
  have hne : lit "peer" ≠ lit "interface" := by decide
  have hkeys : ∀ k ∈ [lit "publickey", lit "presharedkey", lit "endpoint"], k ≠ lit "allowedips" := by decide
  simp only [forall_mem_cons] at hkeys
  simp only [assign, setPeer, if_neg hne, if_true]
  split_ifs <;> simp_all

/-- A later line replaces an earlier one. -/
theorem allowedIPs_section (h : ∀ line ∈ lines, header line = none) :
    (lines.foldl parseLine (lit "peer", pc)).2.allowedIPs = (allowedLines lines).getLast?.getD pc.allowedIPs := by
  induction lines generalizing pc with
  | nil => rfl
  | cons line lines ih =>
    obtain ⟨hline, hlines⟩ := forall_mem_cons.mp h
    rw [foldl_cons, parseLine_eq, hline]
    refine (ih hlines).trans ?_
    have hcons : allowedLines (line :: lines) = (allowedLine line).toList ++ allowedLines lines := by
      rw [allowedLines, filterMap_cons]
      cases allowedLine line <;> rfl
    rw [hcons, getLast?_append, allowedLine]
    cases (allowedLines lines).getLast? with
    | some v => rfl
    | none =>
      cases entry line with
      | none => rfl
      | some e =>
        refine (allowedIPs_assign e).trans ?_
        by_cases he : e.1 = lit "allowedips" <;> simp [he]

theorem allowedIPs_of_one {peer : List Str} {v : Str} (hlast : pc.peerFields = sectionFields peer)
    (hpeer : ∀ line ∈ peer, header line = none) (hone : (allowedLines peer).length ≤ 1) (hv : v ∈ allowedLines peer) :
    pc.allowedIPs = v := by
  have hsection : pc.allowedIPs = (peer.foldl parseLine (lit "peer", {})).2.allowedIPs :=
    congrArg (·.2.2.2.1) hlast
  obtain ⟨w, hw⟩ := length_eq_one_iff.mp (le_antisymm hone (length_pos_of_mem hv))
  rw [hw] at hv
  rw [hsection, allowedIPs_section hpeer, hw, mem_singleton.mp hv]
  rfl

def Trimmed (pc : ParsedClient) : Prop := ∀ x ∈ [pc.privateKey, pc.peerPublicKey, pc.allowedIPs], trimSpace x = x

theorem trimmed_assign {e : Str × Str} (h : Trimmed pc) (he : trimSpace e.2 = e.2) : Trimmed (pc.assign sec e) := by
  simp only [assign, setInterface, setPeer, apply_ite Trimmed]
  simp only [Trimmed, forall_mem_cons] at h ⊢
  simp only [h, he, ite_self, true_and, not_mem_nil, false_imp_iff, implies_true]

theorem trimmed_parse (h : Trimmed pc) : Trimmed (lines.foldl parseLine (sec, pc)).2 := by
  induction lines generalizing sec pc with
  | nil => exact h
  | cons line lines ih =>
    rw [foldl_cons, parseLine_eq]
    cases header line with
    | some sec' => exact ih h
    | none =>
      refine ih ?_
      cases he : entry line with
      | none => exact h
      | some e =>
        refine trimmed_assign h ?_
        unfold entry at he
        grind [trimSpace_trimSpace]

def assignment (key : String) (val : Str) : Str := lit key ++ lit " " ++ byte '=' :: (lit " " ++ val)

theorem trimSpace_blank (s : Str) : trimSpace (lit " " ++ s) = trimSpace s := by
  have hblank : Coded spaceCodes (lit " ") := Coded.cons (s := []) (w := lit " ") (by decide) .nil
  rw [trimSpace, trimLeftSpace, spaceCodes_prefixFree.trimLeftCodes_append hblank]
  rfl

def Word (key : Str) : Prop :=
  key ≠ [] ∧ (∀ b ∈ key, Solid b ∧ b ≠ byte '=' ∧ b ≠ byte '#' ∧ b ≠ byte '[') ∧ trimSpace (key ++ lit " ") = key

instance : DecidablePred Word := fun _ => inferInstanceAs (Decidable (_ ∧ _))

theorem parseLine_assignment {key : String} (hkey : Word (lit key)) (val : Str) (st : Str × ParsedClient) :
    parseLine st (assignment key val) = (st.1, st.2.assign st.1 (toLower (lit key), trimSpace val)) := by
  obtain ⟨hne, hbytes, hkey⟩ := hkey
  rw [assignment, ← trimSpace_blank val]
  generalize lit " " ++ val = rest
  generalize lit key = word at *
  obtain ⟨k, t, rfl⟩ := exists_cons_of_ne_nil hne
  have hk := hbytes k mem_cons_self
  have htrim : trimSpace (k :: t ++ lit " " ++ byte '=' :: rest) =
      k :: t ++ lit " " ++ byte '=' :: trimRightSpace rest := by
    rw [trimSpace_barrier (by decide), cons_append]
    exact congrArg (· ++ _) (trimLeftSpace_barrier hk.1 [] _)
  have hsep : byte '=' ∉ k :: t ++ lit " " := by
    rw [mem_append, not_or]
    exact ⟨fun h => (hbytes _ h).2.1 rfl, by decide⟩
  have hheader : header (k :: t ++ lit " " ++ byte '=' :: rest) = none := by
    unfold header
    rw [htrim]
    exact if_neg fun h => hk.2.2.2 (Option.some.inj h.1)
  have hentry : entry (k :: t ++ lit " " ++ byte '=' :: rest) = some (toLower (k :: t), trimSpace rest) := by
    unfold entry
    simp only [htrim, cut_append hsep, hkey, trimSpace_trimRightSpace]
    refine if_neg ?_
    rintro (h | h)
    · cases h
    · exact hk.2.2.1 (Option.some.inj h)
  rw [parseLine_eq, hheader, hentry]
  rfl

def clientLines (cliPriv srvPub dns endpoint : Str) : List Str :=
  [lit "[Interface]", assignment "PrivateKey" cliPriv, assignment "Address" (lit "10.66.66.2/32"),
    assignment "DNS" dns, [], lit "[Peer]", assignment "PublicKey" srvPub, assignment "Endpoint" endpoint,
    assignment "AllowedIPs" (lit "0.0.0.0/0, ::/0"), assignment "PersistentKeepalive" (lit "25"), []]

theorem parse_clientLines (cliPriv srvPub dns endpoint : Str) :
    ∃ pc, ((clientLines cliPriv srvPub dns endpoint).foldl parseLine ([], {})).2 = pc ∧
      pc.privateKey = trimSpace cliPriv ∧ pc.address ≠ [] ∧ pc.peerPublicKey = trimSpace srvPub ∧
        pc.endpoint = trimSpace endpoint := by
  have hword : ∀ key ∈ ["PrivateKey", "Address", "DNS", "PublicKey", "Endpoint", "AllowedIPs", "PersistentKeepalive"],
      Word (lit key) := by decide
  have hheader (st : Str × ParsedClient) : parseLine st (lit "[Interface]") = (lit "interface", st.2) ∧
      parseLine st (lit "[Peer]") = (lit "peer", st.2) ∧ parseLine st [] = st := ⟨rfl, rfl, rfl⟩
  simp only [forall_mem_cons] at hword
  refine ⟨_, rfl, ?_⟩
  simp only [clientLines, foldl_cons, foldl_nil, hheader, parseLine_assignment, hword]
  have haddr : trimSpace (lit "10.66.66.2/32") ≠ [] := by decide
  exact ⟨rfl, haddr, rfl, rfl⟩

theorem parseClientConfig_ok {validKey : Str → Bool} {text : Str} : parseClientConfig validKey text = .ok pc ↔
    ((split text newline).foldl parseLine ([], {})).2 = pc ∧ pc.privateKey ≠ [] ∧ pc.address ≠ [] ∧
      pc.peerPublicKey ≠ [] ∧ pc.endpoint ≠ [] ∧ validKey pc.privateKey = true ∧ validKey pc.peerPublicKey = true := by
  unfold parseClientConfig
  simp only [check_bind_eq_ok, require_eq_ok, pure, Except.pure, Except.ok.injEq]
  constructor
  · rintro ⟨hpriv, haddr, hpub, hep, hvalid, hvalid', rfl⟩
    exact ⟨rfl, hpriv, haddr, hpub, hep, hvalid, hvalid'⟩
  · rintro ⟨rfl, hpriv, haddr, hpub, hep, hvalid, hvalid'⟩
    exact ⟨hpriv, haddr, hpub, hep, hvalid, hvalid', rfl⟩

theorem lines_clientLines {cliPriv srvPub dns endpoint : Str}
    (h : ∀ x ∈ [cliPriv, srvPub, dns, endpoint], newline ∉ x) :
    split (Go.join (clientLines cliPriv srvPub dns endpoint) newline) newline =
      clientLines cliPriv srvPub dns endpoint := by
  have hfixed : ∀ x ∈ [lit "[Interface]", lit "[Peer]", lit "PrivateKey", lit "Address", lit "DNS", lit "PublicKey",
    lit "Endpoint", lit "AllowedIPs", lit "PersistentKeepalive", lit " ", lit "10.66.66.2/32", lit "0.0.0.0/0, ::/0",
    lit "25"], newline ∉ x := by decide
  have heq : newline ≠ byte '=' := by decide
  simp only [forall_mem_cons] at hfixed h
  refine split_join ?_ (cons_ne_nil _ _)
  simp [clientLines, assignment, hfixed, h, heq]

theorem generated_endpoint {parseKey : Str → Option Str} {server client : Keypair} {host dns : Str} {port : Int}
    (hkeys : ∀ k ∈ [client.1, server.2], (parseKey k).isSome ∧ k ≠ [] ∧ ∀ b ∈ k, Solid b)
    (hhost : ∀ b ∈ host, Solid b ∧ b ≠ byte ':' ∧ b ≠ byte '[' ∧ b ≠ byte ']') (hdns : newline ∉ dns) :
    ∃ gen pc, generateExitServer (some server) (some client) port host dns = some gen ∧
      parseClientConfig (fun k => (parseKey k).isSome) gen.clientConfigText = .ok pc ∧
        splitHostPort pc.endpoint = some (host, itoa port) := by
  obtain ⟨cliPriv, cliPub⟩ := client
  obtain ⟨srvPriv, srvPub⟩ := server
  simp only [forall_mem_cons] at hkeys
  obtain ⟨⟨hpriv, hpriv0, hprivS⟩, ⟨hpub, hpub0, hpubS⟩, -⟩ := hkeys
  have hnl {x : Str} (hx : ∀ b ∈ x, Solid b) : newline ∉ x := fun hm => absurd (hx _ hm) (by decide)
  have hend : ∀ b ∈ host ++ lit ":" ++ itoa port, Solid b := by
    simp only [forall_mem_append]
    exact ⟨⟨fun b hb => (hhost b hb).1, by decide⟩, fun b hb => numeral_solid (itoa_mem hb)⟩
  have hdns' : newline ∉ if trimSpace dns = [] then lit "1.1.1.1" else dns := by
    split
    · decide
    · exact hdns
  obtain ⟨pc, hpc, hprivateKey, haddress, hpublicKey, hendpoint⟩ := parse_clientLines cliPriv srvPub
    (if trimSpace dns = [] then lit "1.1.1.1" else dns) (host ++ lit ":" ++ itoa port)
  rw [trimSpace_of_solid hprivS] at hprivateKey
  rw [trimSpace_of_solid hpubS] at hpublicKey
  rw [trimSpace_of_solid hend] at hendpoint
  refine ⟨_, pc, rfl, ?_, ?_⟩
  · have htext := lines_clientLines (forall_mem_cons.mpr ⟨hnl hprivS, forall_mem_cons.mpr ⟨hnl hpubS,
      forall_mem_cons.mpr ⟨hdns', forall_mem_cons.mpr ⟨hnl hend, forall_mem_nil _⟩⟩⟩⟩)
    rw [← htext] at hpc
    have hne : host ++ lit ":" ++ itoa port ≠ [] := by simp [lit]
    refine parseClientConfig_ok.mpr ⟨?_, hprivateKey ▸ hpriv0, haddress, hpublicKey ▸ hpub0, hendpoint ▸ hne,
      hprivateKey ▸ hpriv, hpublicKey ▸ hpub⟩
    rw [← hpc]
    refine congrArg (fun text => ((split text newline).foldl parseLine ([], {})).2) ?_
    simp [Go.join, List.intercalate, clientLines, assignment, lit, newline, byte]
  · rw [hendpoint, append_assoc]
    exact splitHostPort_plain (fun b hb => (hhost b hb).2) fun b hb => itoa_mem hb

end

theorem clientUAPI_ok {parseKey : Str → Option Str} {wc : WireGuardConfig} (lookupHost : Str → Option (List Str))
    (hkeys : ∀ k ∈ [wc.clientPrivateKey, wc.peerPublicKey], (parseKey (trimSpace k)).isSome)
    (hpsk : trimSpace wc.presharedKey = [] ∨ (parseKey (trimSpace wc.presharedKey)).isSome) :
    ∃ lines, clientUAPI parseKey lookupHost wc = .ok lines ∧ (0 < wc.jc → ∀ p ∈ wc.settings, p ∈ lines) ∧
      ∀ a ∈ split (trimSpace wc.allowedIPs) (byte ','), trimSpace a ≠ [] → (lit "allowed_ip", trimSpace a) ∈ lines := by
  simp only [forall_mem_cons] at hkeys
  obtain ⟨priv, hpriv⟩ := Option.isSome_iff_exists.mp hkeys.1
  obtain ⟨pub, hpub⟩ := Option.isSome_iff_exists.mp hkeys.2.1
  obtain ⟨psk, hpsk⟩ : ∃ psk, presharedLine parseKey wc.presharedKey = .ok psk := by
    unfold presharedLine
    split
    · exact ⟨_, rfl⟩
    next hne =>
      obtain ⟨psk, hpsk⟩ := Option.isSome_iff_exists.mp (hpsk.resolve_left hne)
      rw [keyHex, hpsk]
      exact ⟨_, rfl⟩
  unfold clientUAPI
  rw [keyHex, keyHex, hpriv, hpub, hpsk]
  refine ⟨_, rfl, ?_, ?_⟩
  · intro hjc p hp
    simp [hjc, hp]
  · intro a ha hne
    have hsome : trimSpace wc.allowedIPs ≠ [] := by
      intro h
      rw [h] at ha
      obtain rfl := mem_singleton.mp ha
      exact hne rfl
    rw [if_neg hsome]
    exact mem_append_right _ (mem_map_of_mem (mem_filter.mpr ⟨mem_map_of_mem ha, decide_eq_true hne⟩))

/-- A text with one peer, and the lines its client gives to the device. -/
def applies (text : Str) (lines : List (Str × Str)) : Prop :=
  ∃ pc wc, parseClientConfig (fun _ => true) text = .ok pc ∧
    (parse (wgRenderClient (fun _ => true) (lit "w") pc [] 1080)).map clientOf = some wc ∧
      clientUAPI some (fun _ => none) wc = .ok lines

end ArangeTun.WireGuard
