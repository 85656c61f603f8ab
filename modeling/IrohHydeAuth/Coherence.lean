import IrohHydeAuth.Authentication

/-!
# The gates of two endpoints

An application connection has to pass two gates: `before_connect` of the endpoint that dials and `after_handshake` of
the endpoint that is dialled.  A verdict `Ok` is sent only after the acceptor has recorded the initiator, and what is
recorded stays, so an endpoint that has recorded another one as initiator is let in there.

In the mutual mode an endpoint also records the initiators that it has accepted.  They have verified it, but they record
it only when their task processes the verdict, and until then the two gates differ.
-/

namespace IrohHydeAuth

open Process Prog

namespace Net

variable {w : World} {st : Net}

/-- A handshake that a task has joined with `Ok` has put its endpoint on record at the other one. -/
theorem Sound.inserted_of_completed (hs : Sound w st) {e : EndpointId} {mode : Mode} {c : Conn} {dialled : EndpointAddr}
    {n' : Node} (hn' : w.node dialled.id = some n') (hc : (c, dialled, .ok ()) ∈ (st.gate e mode).completed) :
    c.target = dialled ∧ c.mode = mode ∧ ⟨.insert e, ()⟩ ∈ st.trace (c, .acceptor) := by
  obtain ⟨⟨hd, hmode, ht⟩, hret⟩ := hs.recorded.completed e mode _ hc
  dsimp only at hd hmode ht hret
  subst hd ht
  exact ⟨rfl, hmode, hs.inserted_of_ok hn' hret⟩

/-! ### The one-directional mode -/

theorem Sound.incoming_of_allowed (hs : Sound w st) {i a : EndpointId} {n : Node} (ha : w.node a = some n)
    (hx : a ∈ (st.gate i .oneWay).task.allowed) : i ∈ st.incoming a := by
  obtain ⟨acts, hrun⟩ := hs.recorded.reachable i .oneWay
  rcases (Authenticator.answers_of_run hrun).allowed a hx with ⟨c, dialled, hc, rfl⟩ | ⟨hmode, -⟩
  · obtain ⟨rfl, hmode, hins⟩ := hs.inserted_of_completed ha hc
    exact hs.recorded.admitted (c, .acceptor) i hmode hins
  · cases hmode

/-- In every reachable state, an honest endpoint that `i` allows, or for which a waiter of `i` has been sent `Ok`, has
`i` in its own set; so an application dial that the one gate lets through the other one accepts, then and later. -/
theorem one_way_coherence (w : World) (postcard : PostcardError → String) {labels : List Label}
    (h : init.run w labels = some st) (i : EndpointId) {a : EndpointId} {n : Node} (ha : w.node a = some n) :
    (a ∈ (st.gate i .oneWay).task.allowed → i ∈ st.incoming a) ∧
    ∀ k addr, (st.gate i .oneWay).requests[k]? = some addr → addr.id = a →
      ((k, .ok ()) ∈ (st.gate i .oneWay).replies → i ∈ st.incoming a) ∧
      ∀ alpn, (st.gate i .oneWay).beforeConnect postcard .oneWay alpn k = some .accept →
        ∀ labels' st', st.run w labels' = some st' →
          IncomingAuthHook.afterHandshake (st'.incoming a) alpn i = .accept := by
  have hs := sound_of_run h
  have hreply : ∀ k addr, (st.gate i .oneWay).requests[k]? = some addr → addr.id = a →
      (k, .ok ()) ∈ (st.gate i .oneWay).replies → i ∈ st.incoming a := by
    rintro k addr hreq rfl hr
    exact hs.incoming_of_allowed ha (hs.recorded.allowed_of_reply hreq hr)
  refine ⟨hs.incoming_of_allowed ha, fun k addr hreq hid => ⟨hreply k addr hreq hid, ?_⟩⟩
  intro alpn hb labels' st' hrun
  rw [IncomingAuthHook.afterHandshake, afterHandshake, if_pos]
  by_cases halpn : alpn = ALPN
  · exact .inl halpn
  · have hr := Authenticator.mem_replies_of_authenticate (Authenticator.authenticate_of_beforeConnect halpn hb)
    exact .inr ((hs.run_mono hrun).2 a (hreply k addr hreq hid hr))

theorem duo_one_way_coherence :
    ∃ st, init.run (Duo.world none) (Duo.labels .oneWay ++ [.join Duo.alice .oneWay (Duo.conn .oneWay)]) = some st ∧
      (st.gate Duo.alice .oneWay).beforeConnect Duo.postcard .oneWay (ascii "app/0") 0 = some .accept ∧
      IncomingAuthHook.afterHandshake (st.incoming Duo.bob) (ascii "app/0") Duo.alice = .accept := by
  have hrun : (init.run (Duo.world none) (Duo.labels .oneWay ++ [.join Duo.alice .oneWay (Duo.conn .oneWay)])).any
      (fun st => decide ((st.gate Duo.alice .oneWay).requests[0]? = some ⟨Duo.bob, ∅⟩ ∧
        (st.gate Duo.alice .oneWay).beforeConnect Duo.postcard .oneWay (ascii "app/0") 0 = some .accept)) = true := by
    decide +kernel
  obtain ⟨st, h, hst⟩ := (Option.any_eq_true _ _).1 hrun
  obtain ⟨hreq, hb⟩ := of_decide_eq_true hst
  have hcoh := one_way_coherence (Duo.world none) Duo.postcard h Duo.alice (a := Duo.bob) (n := Duo.node [2] none) rfl
  exact ⟨st, h, hb, (hcoh.2 0 _ hreq rfl).2 _ hb [] st rfl⟩

/-! ### The mutual mode -/

/-- A handshake with `b` that the task of `a` dialled was joined with `Ok`. -/
def RecordedAsInitiator (st : Net) (a b : EndpointId) : Prop :=
  ∃ c dialled, (c, dialled, .ok ()) ∈ (st.gate a .twoWay).completed ∧ dialled.id = b

/-- The session of `a` that accepted `c`, which `b` dialled, inserted `b`. -/
def RecordedAsAcceptor (st : Net) (a b : EndpointId) (c : Conn) : Prop :=
  c.dialer = b ∧ c.target.id = a ∧ c.mode = .twoWay ∧ ⟨.insert b, ()⟩ ∈ st.trace (c, .acceptor)

private theorem Sound.recorded_of_allowed (hs : Sound w st) {a b : EndpointId}
    (hx : b ∈ (st.gate a .twoWay).task.allowed) : RecordedAsInitiator st a b ∨ ∃ c, RecordedAsAcceptor st a b c := by
  obtain ⟨acts, hrun⟩ := hs.recorded.reachable a .twoWay
  rcases (Authenticator.answers_of_run hrun).allowed b hx with ⟨c, dialled, hc, hid⟩ | ⟨-, hins⟩
  · exact .inl ⟨c, dialled, hc, hid⟩
  · obtain ⟨⟨c, side⟩, ho, hmode, hm⟩ := hs.recorded.inserted a .twoWay b hins
    obtain rfl : side = .acceptor := hs.acceptor_of_insert hm
    exact .inr ⟨c, (hs.mutual_verified hmode hm).1.symm, ho, hmode, hm⟩

/-- What an honest endpoint has recorded as initiator has recorded it. -/
private theorem Sound.allowed_of_initiator (hs : Sound w st) {a b : EndpointId} {n : Node} (hb : w.node b = some n)
    (hr : RecordedAsInitiator st a b) : a ∈ (st.gate b .twoWay).task.allowed := by
  obtain ⟨c, dialled, hc, rfl⟩ := hr
  obtain ⟨rfl, hmode, hins⟩ := hs.inserted_of_completed hb hc
  exact hs.recorded.shared (c, .acceptor) a hmode hins

/-- What a task has joined with `Ok` is in its set. -/
private theorem Sound.allowed_of_completed (hs : Sound w st) {e : EndpointId} {mode : Mode} {c : Conn}
    {dialled : EndpointAddr} (hc : (c, dialled, .ok ()) ∈ (st.gate e mode).completed) :
    dialled.id ∈ (st.gate e mode).task.allowed := by
  obtain ⟨acts, hrun⟩ := hs.recorded.reachable e mode
  refine ((Authenticator.synchronised_of_run hrun).settled dialled.id ?_).1
  exact List.countP_pos_iff.2 ⟨_, hc, by simp⟩

/-- The mutual gate of `b` admits `a`. -/
def Admits (st : Net) (b a : EndpointId) : Prop :=
  a ∈ (st.gate b .twoWay).task.allowed ∧
    ∀ alpn, MutualAuthHook.afterHandshake (st.gate b .twoWay).task.allowed alpn a = .accept

private theorem admits_of_allowed {a b : EndpointId} (h : a ∈ (st.gate b .twoWay).task.allowed) : st.Admits b a :=
  ⟨h, fun _ => if_pos (.inr h)⟩

/-- In every reachable state, if the mutual gate of `a` lets an application dial to the honest endpoint `b` through,
then `a` has recorded `b` as initiator or as acceptor.  In the first case the gate of `b` admits `a` from then on.  In
the second, the session of `b` on that connection had verified the challenge of `a` before it signed, and the gate of
`b` admits `a` as soon as the task of `b` has joined that session with `Ok`. -/
theorem mutual_coherence (w : World) (postcard : PostcardError → String) {labels : List Label}
    (h : init.run w labels = some st) {a b : EndpointId} {n : Node} (hb : w.node b = some n) {k : Nat}
    {addr : EndpointAddr} {alpn : Bytes}
    (hreq : (st.gate a .twoWay).requests[k]? = some addr) (hid : addr.id = b) (halpn : alpn ≠ MUTUAL_ALPN)
    (haccept : (st.gate a .twoWay).beforeConnect postcard .twoWay alpn k = some .accept) :
    (RecordedAsInitiator st a b ∨ ∃ c, RecordedAsAcceptor st a b c) ∧
    (RecordedAsInitiator st a b → ∀ labels' st', st.run w labels' = some st' → st'.Admits b a) ∧
    ∀ c, RecordedAsAcceptor st a b c →
      (∃ key nonceA challenge time, MutualSigned w st c key nonceA challenge time) ∧
      ∀ labels' st', st.run w labels' = some st' → (c, c.target, .ok ()) ∈ (st'.gate b .twoWay).completed →
        ∀ labels'' st'', st'.run w labels'' = some st'' → st''.Admits b a := by
  have hs := sound_of_run h
  refine ⟨?_, ?_, ?_⟩
  · have hr := Authenticator.mem_replies_of_authenticate (Authenticator.authenticate_of_beforeConnect halpn haccept)
    exact hs.recorded_of_allowed (hid ▸ hs.recorded.allowed_of_reply hreq hr)
  · intro hr labels' st' hrun
    exact admits_of_allowed ((hs.run_mono hrun).1 b .twoWay (hs.allowed_of_initiator hb hr))
  · rintro c ⟨rfl, rfl, hmode, hm⟩
    obtain ⟨-, hello, challenge, response, -, -, hsigned⟩ := hs.mutual_verified hmode hm
    refine ⟨⟨_, _, _, _, (hsigned n hb).2⟩, ?_⟩
    intro labels' st' hrun hc labels'' st'' hrun'
    have hs' := hs.run hrun
    exact admits_of_allowed ((hs'.run_mono hrun').1 _ .twoWay (hs'.allowed_of_completed hc))

/-- Bob has accepted Alice's handshake and dials back. -/
private def dialBack : List Label :=
  [.gate Duo.bob .twoWay (.call ⟨Duo.alice, ∅⟩), .gate Duo.bob .twoWay (.send 0), .recv Duo.bob .twoWay 1]

theorem duo_mutual_coherence :
    ∃ st, init.run (Duo.world none)
        (Duo.labels .twoWay ++ .join Duo.alice .twoWay (Duo.conn .twoWay) :: dialBack) = some st ∧
      (st.gate Duo.bob .twoWay).beforeConnect Duo.postcard .twoWay (ascii "app/0") 0 = some .accept ∧
      st.Admits Duo.alice Duo.bob := by
  have hrun : (init.run (Duo.world none)
      (Duo.labels .twoWay ++ .join Duo.alice .twoWay (Duo.conn .twoWay) :: dialBack)).any (fun st =>
        decide (((st.gate Duo.bob .twoWay).requests[0]? = some ⟨Duo.alice, ∅⟩ ∧
          (st.gate Duo.bob .twoWay).beforeConnect Duo.postcard .twoWay (ascii "app/0") 0 = some .accept) ∧
        Duo.alice ∈ inserted (st.trace (Duo.conn .twoWay, .acceptor)) ∧
        (Duo.conn .twoWay, (Duo.conn .twoWay).target, .ok ()) ∈ (st.gate Duo.alice .twoWay).completed)) = true := by
    decide +kernel
  obtain ⟨st, h, hst⟩ := (Option.any_eq_true _ _).1 hrun
  obtain ⟨⟨hreq, hb⟩, hm, hc⟩ := of_decide_eq_true hst
  have hcoh := mutual_coherence (Duo.world none) Duo.postcard h (n := Duo.node [1] none) rfl hreq rfl (by decide) hb
  exact ⟨st, h, hb, (hcoh.2.2 _ ⟨rfl, rfl, rfl, mem_inserted.1 hm⟩).2 [] st rfl hc [] st rfl⟩

/-- Bob dials back before Alice's task has processed the verdict: his own gate lets him through and hers does not. -/
theorem duo_mutual_incoherent :
    ∃ st, init.run (Duo.world none) (Duo.labels .twoWay ++ dialBack) = some st ∧
      (st.gate Duo.bob .twoWay).requests[0]? = some ⟨Duo.alice, ∅⟩ ∧
      (st.gate Duo.bob .twoWay).beforeConnect Duo.postcard .twoWay (ascii "app/0") 0 = some .accept ∧
      Duo.bob ∉ (st.gate Duo.alice .twoWay).task.allowed ∧
      MutualAuthHook.afterHandshake (st.gate Duo.alice .twoWay).task.allowed (ascii "app/0") Duo.bob =
        .reject 403 (ascii "not mutually authenticated") := by
  have hrun : (init.run (Duo.world none) (Duo.labels .twoWay ++ dialBack)).any (fun st =>
      decide ((st.gate Duo.bob .twoWay).requests[0]? = some ⟨Duo.alice, ∅⟩ ∧
        (st.gate Duo.bob .twoWay).beforeConnect Duo.postcard .twoWay (ascii "app/0") 0 = some .accept ∧
        Duo.bob ∉ (st.gate Duo.alice .twoWay).task.allowed)) = true := by
    decide +kernel
  obtain ⟨st, h, hst⟩ := (Option.any_eq_true _ _).1 hrun
  obtain ⟨hreq, hb, hx⟩ := of_decide_eq_true hst
  refine ⟨st, h, hreq, hb, hx, if_neg ?_⟩
  rintro (halpn | ha)
  · exact absurd halpn (by decide)
  · exact hx ha

end Net

end IrohHydeAuth
