import ArangeTun.Handshake.Model

/-! # Agreement of the two ends -/

namespace ArangeTun.Handshake

open Go Wire Client TcpMuxServer

theorem resolveMuxVersion_cases (configured : Int) :
    resolveMuxVersion configured = 1 ∨ resolveMuxVersion configured = 2 := by
  unfold resolveMuxVersion
  split
  · exact .inl rfl
  · split <;> exact .inr rfl

theorem setMuxVersion_negotiated (server client configured : Int) :
    TcpMuxServer.setMuxVersion server (resolveMuxVersion configured : Nat) = (resolveMuxVersion configured : Nat) ∧
      TcpMuxClient.setMuxVersion client (resolveMuxVersion configured : Nat) = (resolveMuxVersion configured : Nat) := by
  rcases resolveMuxVersion_cases configured with h | h <;>
    simp [setMuxVersion, TcpMuxClient.setMuxVersion, h]

theorem admitTunnelConn_v2 {cfg : Config} {run : Run} {token rest : Str} {ending : Error}
    {random : Option (Vector UInt8 32)} {answer : Str} {candidate : ControlCandidate}
    (h : TcpMuxServer.admitTunnelConn cfg run ⟨transportFrame token SG_ChanV2 ++ rest, ending⟩ random =
      some (answer, candidate)) :
    cfg.token.length = token.length % 65536 ∧ ∃ r, candidate = ⟨newPoolNonce r, resolveMuxVersion cfg.muxVersion⟩ ∧
      answer = transportFrame (encodeControlAck cfg.token candidate.nonce candidate.muxVersion) SG_ChanV2 := by
  unfold admitTunnelConn at h
  split at h
  · cases h
  · rw [receiveBinaryTransportString_eq] at h
    cases hn : nextBinaryTransportString ⟨transportFrame token SG_ChanV2 ++ rest, ending⟩ with
    | error err =>
      rw [hn] at h
      cases h
    | ok r =>
      obtain ⟨⟨payload, signal⟩, conn⟩ := r
      obtain ⟨hlen, rfl⟩ := nextBinaryTransportString_header hn
      simp only [hn, Except.map, isControlSignal, or_true, decide_true, ↓reduceIte,
        admitControlChannel, controlAck, ne_eq, not_true_eq_false, Option.map_map] at h
      split at h
      · cases h
      · split at h
        · cases h
        · rename_i htok
          simp only [tokenMatches, decide_eq_false_iff_not, not_not] at htok
          obtain ⟨r, _, hr⟩ := Option.map_eq_some_iff.mp h
          simp only [Function.comp, Prod.mk.injEq] at hr
          obtain ⟨rfl, rfl⟩ := hr
          exact ⟨by rw [← htok, hlen], r, rfl, rfl⟩

theorem attempt_established {transport : Transport} {token n : Str} {w : Nat} {legacyServer : Bool} {a : Attempt}
    (h : (attempt transport token legacyServer a).1 = .established n w) :
    ∃ message signal, receiveBinaryTransportString a.answer = .ok (message, signal) ∧
      Client.decodeControlAck message signal = ⟨token, n, w⟩ := by
  unfold attempt at h
  split at h
  · cases h
  · simp only at h
    split at h
    · cases h
    · cases hr : receiveBinaryTransportString a.answer with
      | error err =>
        simp only [hr] at h
        split at h <;> cases h
      | ok r =>
        simp only [hr] at h
        split at h
        · rename_i htok
          cases h
          refine ⟨r.1, r.2, rfl, ?_⟩
          rw [← htok]
        · cases h

/-- A client that established the control channel on a v2 answer took over what the answer says. -/
theorem established_of_v2_answer {token serverToken nonce rest n : Str} {v : Fin 10} {w : Nat} {a : Attempt}
    (hnonce : nonce.length = poolNonceHexLen) (hlen : serverToken.length = token.length % 65536)
    (hbytes : a.answer.bytes = transportFrame (encodeControlAck serverToken nonce v) SG_ChanV2 ++ rest)
    (h : (attempt .tcpmux token false a).1 = .established n w) : n = nonce ∧ w = v := by
  have hack : (encodeControlAck serverToken nonce v).length = 65 + serverToken.length := by
    simp only [encodeControlAck, List.length_append, hnonce, poolNonceHexLen, List.length_cons]
    omega
  obtain ⟨message, signal, hr, hdec⟩ := attempt_established h
  have hans : a.answer =
      ⟨transportFrame (encodeControlAck serverToken nonce v) SG_ChanV2 ++ rest, a.answer.ending⟩ := by
    rw [← hbytes]
  rw [hans, receiveBinaryTransportString_eq] at hr
  by_cases hfit : (encodeControlAck serverToken nonce v).length ≤ 65535
  · rw [nextBinaryTransportString_frame SG_ChanV2 rest a.answer.ending hfit] at hr
    cases hr
    rw [Client.decodeControlAck, if_neg (by simp), decodeControlAck_encodeControlAck serverToken v hnonce] at hdec
    cases hdec
    exact ⟨rfl, rfl⟩
  · exfalso
    cases hn : nextBinaryTransportString
        ⟨transportFrame (encodeControlAck serverToken nonce v) SG_ChanV2 ++ rest, a.answer.ending⟩ with
    | error err =>
      rw [hn] at hr
      cases hr
    | ok r =>
      obtain ⟨⟨m, t⟩, conn⟩ := r
      rw [hn] at hr
      cases hr
      obtain ⟨hm, rfl⟩ := nextBinaryTransportString_header hn
      have hshort : message.length ≤ poolNonceHexLen := by
        rw [hm, hack, poolNonceHexLen]
        omega
      rw [Client.decodeControlAck, if_neg (by simp), decodeControlAck_short hshort] at hdec
      cases hdec
      rw [List.length_nil] at hlen
      omega

theorem Completed.agreement {server client : Config} {serverRun clientRun : Run}
    (h : Completed server client serverRun clientRun) :
    clientRun.poolNonce = serverRun.poolNonce ∧ clientRun.muxVersion = serverRun.muxVersion ∧
      (serverRun.muxVersion = 1 ∨ serverRun.muxVersion = 2) := by
  obtain ⟨run, random, ⟨_, ending⟩, a, answer, candidate, ⟨more, rfl⟩, hserved, rfl, ⟨rest, hrest⟩, hpub⟩ :=
    h.handshake
  obtain ⟨hlen, r, rfl, rfl⟩ := admitTunnelConn_v2 hserved
  cases ho : (attempt .tcpmux client.token false a).1 with
  | established n w =>
    obtain ⟨rfl, rfl⟩ := established_of_v2_answer (length_newPoolNonce r) hlen hrest.symm ho
    rw [ho] at hpub
    cases hpub
    obtain ⟨hs, hc⟩ := setMuxVersion_negotiated server.muxVersion client.muxVersion server.muxVersion
    refine ⟨rfl, by rw [channelHandshake, hs, hc], ?_⟩
    rw [channelHandshake, hs]
    rcases resolveMuxVersion_cases server.muxVersion with h | h <;> simp [h]
  | notSent | receiveFailed _ _ | wrongToken =>
    rw [ho] at hpub
    cases hpub

/-- The answer decodes to what was encoded, and two ends that complete the handshake hold the same nonce and version. -/
theorem control_handshake_agrees :
    (∀ (token nonce : Str) (v : Fin 10), nonce.length = poolNonceHexLen →
      Wire.decodeControlAck (encodeControlAck token nonce v) = ⟨token, nonce, v⟩) ∧
    (∀ ack : Str, (Wire.decodeControlAck ack).token ≠ [] →
      ∃ v : Fin 10, (Wire.decodeControlAck ack).muxVersion = v ∧
        encodeControlAck (Wire.decodeControlAck ack).token (Wire.decodeControlAck ack).nonce v = ack) ∧
    (∀ (server client : Config) (serverRun clientRun : Run), Completed server client serverRun clientRun →
      clientRun.poolNonce = serverRun.poolNonce ∧ clientRun.muxVersion = serverRun.muxVersion ∧
        (serverRun.muxVersion = 1 ∨ serverRun.muxVersion = 2)) := by
  refine ⟨fun token nonce v h => decodeControlAck_encodeControlAck token v h,
    fun ack h => encodeControlAck_decodeControlAck h, fun server client serverRun clientRun h => h.agreement⟩

theorem control_handshake_agrees_at_one_run :
    ∃ serverRun clientRun, Completed ⟨lit "secret", 0⟩ ⟨lit "secret", 1⟩ serverRun clientRun ∧
      clientRun.poolNonce = serverRun.poolNonce ∧ clientRun.muxVersion = serverRun.muxVersion ∧
      (serverRun.muxVersion = 1 ∨ serverRun.muxVersion = 2) := by
  have hrun : Completed ⟨lit "secret", 0⟩ ⟨lit "secret", 1⟩ ⟨true, newPoolNonce (Vector.replicate 32 0xab), 2⟩
      ⟨true, newPoolNonce (Vector.replicate 32 0xab), 2⟩ := by
    refine ⟨⟨false, [], 0⟩, some (Vector.replicate 32 0xab), ⟨transportFrame (lit "secret") SG_ChanV2, .net true⟩,
      ⟨true, true, true, true, ⟨transportFrame (encodeControlAck (lit "secret")
        (newPoolNonce (Vector.replicate 32 0xab)) 2) SG_ChanV2, .net true⟩⟩,
      _, ⟨newPoolNonce (Vector.replicate 32 0xab), 2⟩, List.prefix_rfl, ?_, ?_, List.prefix_rfl, ?_⟩ <;>
      decide +kernel
  exact ⟨_, _, hrun, control_handshake_agrees.2.2 _ _ _ _ hrun⟩

end ArangeTun.Handshake
