import ArangeTun.Socks.Auth

/-! # Client and server agree -/

namespace ArangeTun.Socks

open Go Proc List

def target (host : Str) (port : Int) : Str := joinHostPort host (itoa port)

def okReply : Str := [ver5, repOK, 0x00, atypIPv4, 0, 0, 0, 0, 0, 0]

/-! ## The server, given what the client writes -/

def connectLabels (host : Str) (port : Int) : List (Label Call) :=
  [.read [ver5, cmdConn, 0x00, atypHost], .read [UInt8.ofNat host.length], .read host, .read (portBytes port),
    .call (.dial (target host port)) true, .write okReply]

def Granted (out : Str) : Prop := ∃ a rest, out = a :: repOK :: rest

theorem toNat_ofNat_length {b : Str} (h : b.length < 256) : (UInt8.ofNat b.length).toNat = b.length := by
  rw [UInt8.toNat_ofNat']
  omega

theorem be16_portBytes {port : Int} (hlo : 0 ≤ port) (hhi : port < 65536) :
    ((be16 (portBytes port) 0).toNat : Int) = port := by
  have hfield := be16_putUint16 (UInt16.ofInt port) []
  rw [append_nil] at hfield
  rw [portBytes, hfield, UInt16.ofInt, UInt16.toNat_ofNat']
  omega

variable {ipString : Str → Str} {auth : Bool} {user pass host tail : Str} {port : Int}

@[simp] theorem not_granted_nil : ¬ Granted [] := by
  rintro ⟨a, rest, h⟩
  cases h

theorem ensures_reply {code : UInt8} {input : Str} {X : List (Label Call) → Server Unit → Prop}
    (pre : List (Label Call)) (hpre : sent pre = []) (hcode : code ≠ repOK) :
    Ensures (reply code) input fun ls p => WritesAll (pre ++ ls) → Granted (sent (pre ++ ls)) → X ls p := by
  refine .write_pure (fun p => by simp [hpre]) fun l hl _ => ?_
  rw [writesAll_append, sent_append, hpre]
  rintro ⟨_, hw⟩ ⟨a, rest, h⟩
  rcases hl with rfl | hl
  · simp [hcode] at h
  · simp [hl] at hw

theorem ensures_request (hhost : host.length < 256) (hlo : 0 ≤ port) (hhi : port < 65536) :
    Ensures (request ipString) (connectRequest host port ++ tail) fun ls p => WritesAll ls → Granted (sent ls) →
      ∃ raw, Traffic raw ∧ ls = connectLabels host port ++ raw ∧ p = .stream (target host port) := by
  have hinput : connectRequest host port ++ tail = [ver5, cmdConn, 0x00, atypHost] ++
      ([UInt8.ofNat host.length] ++ (host ++ (portBytes port ++ tail))) := by
    simp [connectRequest]
  have hlen : (List.getD [UInt8.ofNat host.length] 0 0).toNat = host.length := toNat_ofNat_length hhost
  rw [hinput]
  unfold request
  refine .readFull_append rfl (by simp) (fun part err rest => ?_) ?_
  · exact ensures_reply [.readFails part err] rfl (by decide)
  dsimp only
  rw [if_neg (by decide)]
  unfold readAddr
  rw [if_neg (by decide), if_neg (by decide), if_pos (by decide), bind_assoc]
  refine .readFull_append rfl (by simp) (fun part err rest => ?_) ?_
  · exact ensures_reply [.read _, .readFails part err] rfl (by decide)
  dsimp only
  rw [hlen]
  refine .readFull_append rfl (by simp) (fun part err rest => ?_) ?_
  · exact ensures_reply [.read _, .read _, .readFails part err] rfl (by decide)
  refine .readFull_append rfl (by simp) (fun part err rest => ?_) ?_
  · exact ensures_reply [.read _, .read _, .read _, .readFails part err] rfl (by decide)
  dsimp only
  rw [if_pos (by decide), be16_portBytes hlo hhi]
  refine .call (by simp) fun ok => ?_
  cases ok with
  | false => exact ensures_reply [.read _, .read _, .read _, .read _, .call _ false] rfl (by decide)
  | true =>
    simp only [↓reduceIte, reply, bind_assoc, pure_bind]
    refine .write_ (by simp) fun l hl _ _ => .stream fun raw hraw => ?_
    intro hw _
    refine ⟨raw, hraw, ?_, rfl⟩
    rcases hl with rfl | hl
    · rfl
    · simp [hl] at hw

theorem ensures_handle_hello {m : UInt8} {rest : Str} {Q : List (Label Call) → Server Unit → Prop}
    (hwait : ∀ ls p, sent ls = [] → Q ls p)
    (h : Ensures (authenticate auth [m] >>= fun ok => if ok then request ipString else pure ()) rest fun ls =>
      Q (.read [ver5, 0x01] :: .read [m] :: ls)) :
    Ensures (handle ipString auth) ([ver5, 0x01] ++ ([m] ++ rest)) Q := by
  unfold handle
  refine .readFull_append rfl (hwait _ _ rfl) (fun part err rest => .pure (hwait _ _ rfl)) ?_
  dsimp only
  rw [if_neg (by decide)]
  exact .readFull_append rfl (hwait _ _ rfl) (fun part err rest => .pure (hwait _ _ rfl)) h

theorem ensures_refused {m : UInt8} {input : Str} {X : Str → List (Label Call) → Server Unit → Prop}
    (pre : List (Label Call)) (hpre : sent pre = []) (hm : m ≠ 0xFF) :
    Ensures (Conn.write [ver5, 0xFF] >>= fun _ => pure ()) input fun ls p =>
      WritesAll (pre ++ ls) → ∀ out, sent (pre ++ ls) = [ver5, m] ++ out → X out ls p := by
  refine .write_pure (fun p => by simp [hpre]) fun l hl _ => ?_
  rw [writesAll_append, sent_append, hpre]
  rintro ⟨_, hw⟩ out hout
  rcases hl with rfl | hl
  · simp [hm.symm] at hout
  · simp [hl] at hw

theorem ensures_handle_none (hhost : host.length < 256) (hlo : 0 ≤ port) (hhi : port < 65536) :
    Ensures (handle ipString auth) ([ver5, 0x01] ++ ([authNone] ++ (connectRequest host port ++ tail))) fun ls p =>
      WritesAll ls → ∀ out, sent ls = [ver5, authNone] ++ out → Granted out →
        auth = false ∧ ∃ raw, Traffic raw ∧ p = .stream (target host port) ∧
          ls = [Label.read [ver5, 0x01], .read [authNone], .write [ver5, authNone]] ++ connectLabels host port ++
            raw := by
  refine ensures_handle_hello (fun ls p hls => by simp [hls]) ?_
  unfold authenticate
  cases auth with
  | true =>
    simp only [Bool.true_eq_false, ↓reduceIte]
    rw [if_pos (by decide)]
    simp only [bind_assoc, pure_bind]
    exact ensures_refused [.read _, .read _] rfl (by decide)
  | false =>
    simp only [↓reduceIte]
    rw [if_neg (by decide)]
    simp only [bind_assoc, pure_bind, ↓reduceIte]
    refine .write_ (by simp) fun l hl _ _ ls p hrun hin hw out hout hg => ?_
    rcases hl with rfl | hl
    · have hout' : sent ls = out := by simpa using hout
      obtain ⟨raw, hraw, hls, hp⟩ := ensures_request hhost hlo hhi ls p hrun hin (by simpa using hw) (hout' ▸ hg)
      exact ⟨trivial, raw, hraw, hp, by simp [hls]⟩
    · simp [hl] at hw

theorem ensures_denied {input : Str} {X : Str → List (Label Call) → Server Unit → Prop} (pre : List (Label Call))
    (hpre : sent pre = [ver5, authUP]) :
    Ensures (Conn.write [0x01, 0x01] >>= fun _ => pure ()) input fun ls p =>
      WritesAll (pre ++ ls) → ∀ out, sent (pre ++ ls) = [ver5, authUP] ++ out →
        ∀ x out', out = [x, 0x00] ++ out' → X out' ls p := by
  refine .write_pure (fun p => by simp [hpre]) fun l hl _ => ?_
  rw [writesAll_append, sent_append, hpre]
  rintro ⟨_, hw⟩ out hout x out' h
  rcases hl with rfl | hl
  · simp [h] at hout
  · simp [hl] at hw

theorem credentials_inj {user pass user' pass' rest rest' : Str} (hu : user.length < 256) (hu' : user'.length < 256)
    (hp : pass.length < 256) (hp' : pass'.length < 256)
    (h : credentials user pass ++ rest = credentials user' pass' ++ rest') :
    user = user' ∧ pass = pass' ∧ rest = rest' := by
  simp only [credentials, cons_append, nil_append, append_assoc, List.cons.injEq, true_and] at h
  obtain ⟨hlen, h⟩ := h
  have hlen' : user.length = user'.length := by
    rw [← toNat_ofNat_length hu, hlen, toNat_ofNat_length hu']
  obtain ⟨rfl, htail⟩ := append_inj h hlen'
  obtain ⟨hplen, hbody⟩ := cons_eq_cons.mp htail
  have hplen' : pass.length = pass'.length := by
    rw [← toNat_ofNat_length hp, hplen, toNat_ofNat_length hp']
  obtain ⟨rfl, rfl⟩ := append_inj hbody hplen'
  exact ⟨rfl, rfl, rfl⟩

theorem ensures_handle_credentials (huser : user.length < 256) (hpass : pass.length < 256)
    (hhost : host.length < 256) (hlo : 0 ≤ port) (hhi : port < 65536) :
    Ensures (handle ipString auth)
      ([ver5, 0x01] ++ ([authUP] ++ (credentials user pass ++ (connectRequest host port ++ tail)))) fun ls p =>
        WritesAll ls → ∀ out, sent ls = [ver5, authUP] ++ out → ∀ x out', out = [x, 0x00] ++ out' → Granted out' →
          auth = true ∧ ∃ raw, Traffic raw ∧ p = .stream (target host port) ∧
            ls = [Label.read [ver5, 0x01], .read [authUP], .write [ver5, authUP]] ++
              credentialLabels user pass true ++ [Label.write [0x01, 0x00]] ++ connectLabels host port ++ raw := by
  refine ensures_handle_hello (fun ls p hls => by simp [hls]) ?_
  unfold authenticate
  cases auth with
  | false =>
    simp only [↓reduceIte]
    rw [if_pos (by decide)]
    simp only [bind_assoc, pure_bind]
    exact ensures_refused [.read _, .read _] rfl (by decide)
  | true =>
    simp only [Bool.true_eq_false, ↓reduceIte]
    rw [if_neg (by decide)]
    simp only [bind_assoc]
    refine .write_ (by simp) fun l hl _ _ => ?_
    rcases hl with rfl | hl
    swap
    · exact .of_forall fun ls p hw => by simp [hl] at hw
    refine ensures_readAuth (fun ls p hls _ out hout x out' h => ?_) (fun ls rest hls => ?_) ?_
    · simp [hls.1, h] at hout
    · simp only [Bool.false_eq_true, ↓reduceIte, bind_assoc, pure_bind]
      exact ensures_denied ([.read _, .read _, .write [ver5, authUP]] ++ ls) (by simp [hls.1])
    · intro user' pass' rest ok hu' hp' hrest
      obtain ⟨rfl, rfl, rfl⟩ := credentials_inj huser hu' hpass hp' hrest
      cases ok with
      | false =>
        simp only [Bool.false_eq_true, ↓reduceIte, bind_assoc, pure_bind]
        exact ensures_denied ([.read _, .read _, .write [ver5, authUP]] ++ credentialLabels user pass false) rfl
      | true =>
        simp only [↓reduceIte, bind_assoc, pure_bind]
        refine .write_ ?_ fun l hl _ _ ls p hrun hin hw out hout x out' h hg => ?_
        · intro _ out hout x out' h
          simp [credentialLabels, h] at hout
        rcases hl with rfl | hl
        · have hout' : 0x01 = x ∧ sent ls = out' := by simpa [credentialLabels, h] using hout
          have hw' : WritesAll ls := by simpa [credentialLabels] using hw
          obtain ⟨raw, hraw, hls, hp⟩ := ensures_request hhost hlo hhi ls p hrun hin hw' (hout'.2 ▸ hg)
          exact ⟨trivial, raw, hraw, hp, by simp [hls]⟩
        · simp [hl, credentialLabels] at hw

def greetLabels (user pass : Str) : List (Label Call) :=
  [Label.read [ver5, 0x01], .read [want user pass], .write [ver5, want user pass]] ++
    if user = [] ∧ pass = [] then [] else credentialLabels user pass true ++ [Label.write [0x01, 0x00]]

def hello (user pass : Str) : Str :=
  [ver5, 0x01, want user pass] ++ if user = [] ∧ pass = [] then [] else credentials user pass

def welcome (user pass : Str) (x : UInt8) : Str :=
  [ver5, want user pass] ++ if user = [] ∧ pass = [] then [] else [x, 0x00]

theorem ensures_handle (huser : user.length < 256) (hpass : pass.length < 256) (hhost : host.length < 256)
    (hlo : 0 ≤ port) (hhi : port < 65536) :
    Ensures (handle ipString auth) (hello user pass ++ connectRequest host port ++ tail) fun ls p =>
      WritesAll ls → ∀ x out, sent ls = welcome user pass x ++ out → Granted out →
        (auth = true ↔ ¬ (user = [] ∧ pass = [])) ∧ ∃ raw, Traffic raw ∧
          p = .stream (target host port) ∧ ls = greetLabels user pass ++ connectLabels host port ++ raw := by
  by_cases hcred : user = [] ∧ pass = []
  · intro ls p hrun hin hw x out hout hg
    simp only [hello, welcome, want, hcred, and_self, ↓reduceIte, append_nil] at hin hout
    obtain ⟨hauth, raw, hraw, hp, hls⟩ :=
      ensures_handle_none hhost hlo hhi ls p hrun (by simpa using hin) hw out hout hg
    exact ⟨by simp [hauth, hcred], raw, hraw, hp, by simp [greetLabels, want, hcred, hls]⟩
  · intro ls p hrun hin hw x out hout hg
    simp only [hello, welcome, want, hcred, ↓reduceIte, append_assoc] at hin hout
    obtain ⟨hauth, raw, hraw, hp, hls⟩ := ensures_handle_credentials huser hpass hhost hlo hhi ls p hrun hin hw _ hout
      x out rfl hg
    exact ⟨by simp [hauth, hcred], raw, hraw, hp, by simp [greetLabels, want, hcred, hls]⟩

/-! ## The client, up to the stream it returns -/

def returned : Option Error → Client Error
  | some err => pure err
  | none => .stream ()

theorem dial_eq : dial user pass host port = negotiate user pass host port >>= returned := rfl

theorem ensures_returned_none {input : Str} {Q : List (Label Empty) → Client Error → Prop}
    (h : ∀ raw, Traffic raw → Q raw (.stream ())) : Ensures (pure none >>= returned) input Q := by
  rw [pure_bind]
  exact .stream h

structure Skips (atyp : UInt8) (skip : List (Label Empty)) : Prop where
  sent : sent skip = []
  quiet : Quiet skip
  ipv4 : atyp = atypIPv4 → (received skip).length = 6

theorem ensures_discard {n : Nat} {input : Str} {Q : List (Label Empty) → Client Error → Prop}
    (hQ : ∀ ls p, p.handedTo = none → Q ls p)
    (h : ∀ bound raw, bound.length = n → Traffic raw → Q (.read bound :: raw) (.stream ())) :
    Ensures (discard n >>= returned) input Q := by
  unfold discard
  rw [bind_assoc]
  refine .readFull (hQ _ _ rfl) (fun bound rest _ hlen => ?_) fun part err rest => ?_
  · exact ensures_returned_none fun raw hraw => h bound raw hlen hraw
  · exact .pure (hQ _ _ rfl)

theorem ensures_skipBound {atyp : UInt8} {input : Str} :
    Ensures (skipBound atyp >>= returned) input fun ls p => p.handedTo = some () →
      ∃ skip raw, ls = skip ++ raw ∧ Skips atyp skip ∧ Traffic raw := by
  unfold skipBound boundLength
  split
  · simp only [pure_bind]
    refine ensures_discard (fun ls p hp => by simp [hp]) fun bound raw hlen hraw _ => ?_
    exact ⟨[.read bound], raw, rfl, ⟨rfl, by simp, fun _ => by simp [hlen]⟩, hraw⟩
  rename_i hipv4
  split
  · simp only [pure_bind]
    refine ensures_discard (fun ls p hp => by simp [hp]) fun bound raw _ hraw _ => ?_
    exact ⟨[.read bound], raw, rfl, ⟨rfl, by simp, fun h => absurd h hipv4⟩, hraw⟩
  split
  · simp only [bind_assoc]
    refine .readFull (by simp) (fun l rest _ _ => ?_) fun part err rest => .pure (by simp)
    simp only [pure_bind]
    refine ensures_discard (fun ls p hp => by simp [hp]) fun bound raw _ hraw _ => ?_
    exact ⟨[.read l, .read bound], raw, rfl, ⟨rfl, by simp, fun h => absurd h hipv4⟩, hraw⟩
  · exact .pure (by simp)

theorem ensures_connect {input : Str} :
    Ensures (connect host port >>= returned) input fun ls p => p.handedTo = some () →
      ∃ head skip raw, ls = [Label.write (connectRequest host port), .read head] ++ skip ++ raw ∧ head.length = 4 ∧
        head.getD 1 0 = repOK ∧ Skips (head.getD 3 0) skip ∧ Traffic raw := by
  unfold connect
  rw [bind_assoc]
  refine .write (by simp) ?_ fun part err => .pure (by simp)
  dsimp only
  rw [bind_assoc]
  refine .readFull (by simp) (fun head rest _ hlen => ?_) fun part err rest => .pure (by simp)
  dsimp only
  split
  · exact .pure (by simp)
  rename_i hcode
  intro ls p hrun hin hp
  obtain ⟨skip, raw, rfl, hskip, hraw⟩ := ensures_skipBound ls p hrun hin hp
  exact ⟨head, skip, raw, rfl, hlen, not_not.mp hcode, hskip, hraw⟩

def helloLabels (user pass : Str) (x : UInt8) : List (Label Empty) :=
  [Label.write [ver5, 0x01, want user pass], .read [ver5, want user pass]] ++
    if user = [] ∧ pass = [] then [] else [Label.write (credentials user pass), .read [x, 0x00]]

theorem ensures_dial {input : Str} :
    Ensures (dial user pass host port) input fun ls p => p.handedTo = some () →
      ∃ x head skip raw,
        ls = helloLabels user pass x ++ [Label.write (connectRequest host port), .read head] ++ skip ++ raw ∧
        head.length = 4 ∧ head.getD 1 0 = repOK ∧ Skips (head.getD 3 0) skip ∧ Traffic raw := by
  rw [dial_eq]
  unfold negotiate
  rw [bind_assoc]
  refine .write (by simp) ?_ fun part err => .pure (by simp)
  dsimp only
  rw [bind_assoc]
  refine .readFull (by simp) (fun resp rest _ hlen => ?_) fun part err rest => .pure (by simp)
  dsimp only
  split
  · exact .pure (by simp)
  rename_i hresp
  rw [not_or, not_not, not_not] at hresp
  have hresp' : resp = [ver5, want user pass] := by rw [length_two hlen, hresp.1, hresp.2]
  by_cases hcred : user = [] ∧ pass = []
  · rw [if_neg (not_not.mpr hcred)]
    intro ls p hrun hin hp
    obtain ⟨head, skip, raw, rfl, h⟩ := ensures_connect ls p hrun hin hp
    exact ⟨0, head, skip, raw, by simp [helloLabels, hcred, hresp'], h⟩
  · rw [if_pos hcred]
    unfold sendAuth
    simp only [bind_assoc]
    refine .write (by simp) ?_ fun part err => .pure (by simp)
    simp only [bind_assoc]
    refine .readFull (by simp) (fun ar rest _ hlen₂ => ?_) fun part err rest => .pure (by simp)
    dsimp only
    split
    · exact .pure (by simp)
    rename_i har
    simp only [pure_bind]
    intro ls p hrun hin hp
    obtain ⟨head, skip, raw, rfl, h⟩ := ensures_connect ls p hrun hin hp
    refine ⟨ar.getD 0 0, head, skip, raw, ?_, h⟩
    have har' := length_two hlen₂
    rw [not_not.mp har] at har'
    rw [helloLabels, if_neg hcred, ← har', hresp']
    simp

/-! ## Both together -/

def opened (ipString : Str → Str) (auth : Bool) (user pass host : Str) (port : Int) :
    Dialogue Empty Unit Error Call Str Unit :=
  .start (dial user pass host port) (handle ipString auth)

open Dialogue in
structure Agreed (auth : Bool) (user pass host : Str) (port : Int) (ms : List (Move Empty Call))
    (d : Dialogue Empty Unit Error Call Str Unit) : Prop where
  method : auth = true ↔ ¬ (user = [] ∧ pass = [])
  calls : calls (serverLabels ms) = (if auth then [Call.auth user pass] else []) ++ [Call.dial (target host port)]
  piped : d.server.handedTo = some (target host port)
  upstream : given (clientLabels ms) = taken (serverLabels ms) ++ d.toServer
  downstream : given (serverLabels ms) = taken (clientLabels ms) ++ d.toClient

theorem rest_of_okReply {head rest more : Str} {skip : List (Label Empty)} (hlen : head.length = 4)
    (hskip : Skips (head.getD 3 0) skip) (h : okReply ++ rest = head ++ (received skip ++ more)) : rest = more := by
  have hsplit : okReply ++ rest = okReply.take 4 ++ (okReply.drop 4 ++ rest) := rfl
  rw [hsplit] at h
  obtain ⟨rfl, htail⟩ := append_inj h hlen.symm
  have hbound : (received skip).length = 6 := hskip.ipv4 rfl
  exact (append_inj htail hbound.symm).2

theorem granted_of_head {head : Str} (rest : Str) (hlen : head.length = 4) (hcode : head.getD 1 0 = repOK) :
    Granted (head ++ rest) := by
  obtain ⟨a, b, c, e, rfl⟩ := length_eq_four.mp hlen
  obtain rfl : b = repOK := hcode
  exact ⟨a, c :: e :: rest, rfl⟩

/-! What the parts of the two runs move. -/

theorem sent_helloLabels (x : UInt8) : sent (helloLabels user pass x) = hello user pass := by
  unfold helloLabels hello
  split <;> simp

theorem received_helloLabels (x : UInt8) : received (helloLabels user pass x) = welcome user pass x := by
  unfold helloLabels welcome
  split <;> simp

theorem sent_greetLabels : sent (greetLabels user pass) = welcome user pass 0x01 := by
  unfold greetLabels welcome
  split <;> simp [credentialLabels]

theorem received_greetLabels : received (greetLabels user pass) = hello user pass := by
  unfold greetLabels hello
  split <;> simp [credentialLabels, credentials]

theorem calls_greetLabels :
    calls (greetLabels user pass) = if user = [] ∧ pass = [] then [] else [.auth user pass] := by
  unfold greetLabels
  split <;> simp [credentialLabels]

theorem received_connectLabels : received (connectLabels host port) = connectRequest host port := by
  simp [connectLabels, connectRequest]

theorem length_welcome (x y : UInt8) : (welcome user pass x).length = (welcome user pass y).length := by
  unfold welcome
  split <;> rfl

theorem helloLabels_quiet (x : UInt8) : Quiet (helloLabels user pass x) := by
  unfold helloLabels
  split <;> simp

theorem greetLabels_quiet : Quiet (greetLabels user pass) := by
  unfold greetLabels
  split <;> simp [credentialLabels]

open Dialogue in
/-- When `Negotiate` returns nil, the server dialled the target that was meant, and the stream starts on both sides. -/
theorem agreed_of_returned {ms : List (Move Empty Call)} {d : Dialogue Empty Unit Error Call Str Unit}
    (hrun : Transition.run Dialogue.step (opened ipString auth user pass host port) ms = some d)
    (hok : d.client.handedTo = some ()) (huser : user.length ≤ 255) (hpass : pass.length ≤ 255)
    (hhost : host.length ≤ 255) (hlo : 0 ≤ port) (hhi : port ≤ 65535) (hw : WritesAll (serverLabels ms)) :
    Agreed auth user pass host port ms d := by
  obtain ⟨hc, hs, hts, htc⟩ := run_joined hrun
  obtain ⟨x, head, skip, raw, hlc, hlen, hcode, hskip, hraw⟩ := ensures_dial _ _ hc (prefix_refl _) hok
  simp only [opened, start, nil_append] at hts htc
  have hsent : sent (clientLabels ms) = hello user pass ++ connectRequest host port ++ sent raw := by
    simp [hlc, sent_append, sent_helloLabels, hskip.sent]
  have hreceived : received (clientLabels ms) = welcome user pass x ++ (head ++ (received skip ++ received raw)) := by
    simp [hlc, received_append, received_helloLabels]
  have hin : received (serverLabels ms) <+: hello user pass ++ connectRequest host port ++ sent raw :=
    ⟨d.toServer, by rw [← hts, hsent]⟩
  have hout : sent (serverLabels ms) =
      welcome user pass x ++ (head ++ (received skip ++ (received raw ++ d.toClient))) := by
    simp [htc, hreceived]
  obtain ⟨hmethod, rawS, hrawS, hp, hls⟩ := ensures_handle (Nat.lt_succ_of_le huser) (Nat.lt_succ_of_le hpass)
    (Nat.lt_succ_of_le hhost) hlo (Int.lt_add_one_of_le hhi) _ _ hs hin hw x _ hout (granted_of_head _ hlen hcode)
  have hsentS : sent (serverLabels ms) = welcome user pass 0x01 ++ (okReply ++ sent rawS) := by
    simp [hls, sent_append, sent_greetLabels, connectLabels]
  have hreceivedS : received (serverLabels ms) = hello user pass ++ connectRequest host port ++ received rawS := by
    simp [hls, received_append, received_greetLabels, received_connectLabels]
  have hup : sent raw = received rawS ++ d.toServer := by
    simpa [hsent, hreceivedS] using hts
  have hdown : sent rawS = received raw ++ d.toClient :=
    rest_of_okReply hlen hskip (append_inj (hsentS.symm.trans hout) (length_welcome ..)).2
  have hclient : (clientLabels ms).filter Label.isRaw = raw := by
    rw [hlc]
    exact filter_isRaw_append (by simp [helloLabels_quiet, hskip.quiet]) hraw
  have hserver : (serverLabels ms).filter Label.isRaw = rawS := by
    rw [hls]
    exact filter_isRaw_append (by simp [greetLabels_quiet, connectLabels]) hrawS
  refine ⟨hmethod, ?_, by rw [hp]; rfl, ?_, ?_⟩
  · rw [hls, calls_append, calls_append, hrawS.calls, calls_greetLabels, ← ite_not, if_congr hmethod.symm rfl rfl]
    simp [connectLabels]
  · rw [given, taken, hclient, hserver, hup]
  · rw [given, taken, hclient, hserver, hdown]

def connected : List (Move Empty Call) :=
  [Move.client (.write [5, 1, 2]), .server (.read [5, 1]), .server (.read [2]), .server (.write [5, 2]),
    .client (.read [5, 2]), .client (.write (credentials (lit "u") (lit "p")))] ++
  (credentialLabels (lit "u") (lit "p") true).map Move.server ++
  [Move.server (.write [1, 0]), .client (.read [1, 0]), .client (.write (connectRequest (lit "h") 80))] ++
  (connectLabels (lit "h") 80).map Move.server ++
  [Move.client (.read [5, 0, 0, 1]), .client (.read [0, 0, 0, 0, 0, 0])]

theorem agreed_of_returned_connected :
    ∃ d, Transition.run Dialogue.step (opened id true (lit "u") (lit "p") (lit "h") 80) connected = some d ∧
      Agreed true (lit "u") (lit "p") (lit "h") 80 connected d := by
  have hconnected : ∃ d, Transition.run Dialogue.step (opened id true (lit "u") (lit "p") (lit "h") 80) connected =
      some d ∧ d.client.handedTo = some () := Transition.exists_run (by decide +kernel)
  obtain ⟨d, hrun, hok⟩ := hconnected
  exact ⟨d, hrun, agreed_of_returned hrun hok (by decide) (by decide) (by decide) (by decide) (by decide) (by decide)⟩

def longHost : Str := List.replicate 257 (byte 'a')

def misread : List (Move Empty Call) :=
  [.client (.write [5, 1, 0]), .server (.read [5, 1]), .server (.read [0]), .server (.write [5, 0]),
    .client (.read [5, 0]), .client (.write (connectRequest longHost 80)), .server (.read [5, 1, 0, 3]),
    .server (.read [1]), .server (.read (lit "a")), .server (.read (lit "aa")),
    .server (.call (.dial (lit "a:24929")) true), .server (.write okReply), .client (.read [5, 0, 0, 1]),
    .client (.read [0, 0, 0, 0, 0, 0])]

open Dialogue in
/-- The length of the host name does not fit into its byte, so the server takes one letter for the host and two for the
port. -/
theorem longHost_misread :
    ∃ d, Transition.run Dialogue.step (opened id false [] [] longHost 80) misread = some d ∧
      d.client.handedTo = some () ∧ WritesAll (serverLabels misread) ∧ d.server.handedTo = some (lit "a:24929") ∧
      given (clientLabels misread) = [] ∧ d.toServer = List.replicate 254 (byte 'a') ++ [0, 80] :=
  Transition.exists_run (by decide +kernel)

end ArangeTun.Socks
