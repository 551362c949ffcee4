import Sortie.Engine.RequestStream
import Sortie.Lib.Run

/-!
# The remote request source never runs dry

The client asks again from inside a dequeue only, when everything it asked for has arrived
and the queue is short. What is in flight or queued is its stock: a message that arrives
leaves the stock as it is, and a dequeue that would bring it to nothing asks for more, as
long as the stream is open.
-/

namespace Sortie.Engine.RequestStreamGrpcClientImpl

variable {M : Type} {L : UInt32} {w w' : World M}

/-- What a worker can take before the service is asked again. -/
def stock (c : RequestStreamGrpcClientImpl M) : Nat := c.inFlightHeaders.toNat + c.messages.length

/-- What holds whatever arrives and is taken, and whenever the stream is closed. -/
structure Replenished (L : UInt32) (w : World M) : Prop where
  length : w.client.headerBufferLength = L
  inFlight : w.client.inFlightHeaders.toNat + w.arrived.length = w.requested
  /-- messages are taken in the order of their arrival, each of them once -/
  order : w.taken ++ w.client.messages = w.arrived
  /-- an open stream is never out of stock -/
  stock_pos : w.client.stream = true → 1 ≤ w.client.stock
  stock_le : w.client.stock ≤ 2 * L.toNat - 1

theorem replenished_started (hL : 1 ≤ L.toNat) : Replenished L (World.started (M := M) L) := by
  have hstock : stock (World.started (M := M) L).client = L.toNat := rfl
  refine ⟨rfl, ?_, rfl, fun _ => ?_, ?_⟩
  · show L.toNat + 0 = (List.map UInt32.toNat [L]).sum
    simp
  · omega
  · omega

/-- A message arrives only where one is in flight. -/
theorem Replenished.receive (h : Replenished L w) {message : M}
    (hs : w.step (.onReceiveMessage message) = some w') :
    0 < w.client.inFlightHeaders.toNat ∧ Replenished L w' := by
  obtain ⟨hmore, rfl⟩ := Lts.guarded hs
  obtain ⟨hlength, hflight, horder, hpos, hle⟩ := h
  have hsome : 0 < w.client.inFlightHeaders.toNat := by omega
  have hdown : (w.client.onReceiveMessage message).inFlightHeaders.toNat
      = w.client.inFlightHeaders.toNat - 1 :=
    UInt32.toNat_sub_of_le _ _ (UInt32.le_iff_toNat_le.mpr hsome)
  have hstock : (w.client.onReceiveMessage message).stock = w.client.stock := by
    unfold stock
    rw [hdown]
    simp only [onReceiveMessage, List.length_append, List.length_singleton]
    omega
  refine ⟨hsome, hlength, ?_, ?_, fun ho => hstock ▸ hpos ho, hstock ▸ hle⟩
  · show (w.client.onReceiveMessage message).inFlightHeaders.toNat + (_ ++ [_]).length = w.requested
    rw [hdown, List.length_append, List.length_singleton]
    omega
  · show w.taken ++ (w.client.messages ++ [message]) = w.arrived ++ [message]
    rw [← List.append_assoc, horder]

theorem Replenished.dequeue (h : Replenished L w) (hs : w.step .maybeDequeue = some w') :
    Replenished L w' := by
  obtain rfl := Option.some.inj hs
  obtain ⟨rfl, hflight, horder, hpos, hle⟩ := h
  unfold World.requested at hflight
  unfold stock at hpos hle
  unfold maybeDequeue
  cases hm : w.client.messages with
  | nil =>
    refine ⟨rfl, hflight, ?_, hpos, hle⟩
    show w.taken ++ [] ++ w.client.messages = w.arrived
    rw [List.append_nil, horder]
  | cons message messages =>
    rw [hm, List.length_cons] at hpos hle
    rw [hm, ← List.singleton_append, ← List.append_assoc] at horder
    dsimp only [trySendRequest]
    split
    · rename_i hask
      have hzero : w.client.inFlightHeaders.toNat = 0 := congrArg UInt32.toNat hask.1
      split
      · -- everything that was asked for has arrived, and there is room for as much again
        refine ⟨rfl, ?_, horder, fun _ => ?_, ?_⟩
        · simp only [World.requested, List.map_append, List.sum_append, List.map_singleton,
            List.sum_singleton]
          omega
        · simp only [stock]
          omega
        · simp only [stock]
          omega
      · rename_i hclosed
        exact ⟨rfl, hflight, horder, fun ho => absurd ho hclosed, by simp only [stock]; omega⟩
    · rename_i hkeep
      refine ⟨rfl, hflight, horder, fun ho => ?_, by simp only [stock]; omega⟩
      show 1 ≤ w.client.inFlightHeaders.toNat + messages.length
      by_contra hnone
      exact hkeep ⟨UInt32.toNat_inj.mp (by simp; omega), by omega⟩

/-- **Nothing stalls and nothing overflows**, whatever the interleaving and whenever the stream is
closed. -/
theorem replenished {es : List (Event M)} (hL : 1 ≤ L.toNat)
    (hs : Lts.Run (fun a e b => World.step a e = some b) (World.started L) es w) :
    Replenished L w ∧ ∀ message w', w.step (.onReceiveMessage message) = some w' →
      0 < w.client.inFlightHeaders.toNat := by
  have h : Replenished L w := by
    refine hs.invariant (replenished_started hL) (fun a e b ha hstep => ?_)
    cases e with
    | onReceiveMessage message => exact (ha.receive hstep).2
    | onRemoteClose =>
      obtain rfl := Option.some.inj hstep
      exact { ha with stock_pos := nofun }
    | maybeDequeue => exact ha.dequeue hstep
  exact ⟨h, fun _ _ hstep => (h.receive hstep).1⟩

/-- A buffer of two is asked for again when its second message is taken, and not after a close. -/
theorem replenished_twice : ∃ w : World Nat,
    Lts.Run (fun a e b => World.step a e = some b) (World.started 2)
      [.onReceiveMessage 7, .maybeDequeue, .onReceiveMessage 8, .maybeDequeue, .onReceiveMessage 9,
        .onReceiveMessage 4, .onRemoteClose, .maybeDequeue, .maybeDequeue, .maybeDequeue] w
    ∧ Replenished 2 w ∧ w.taken = [7, 8, 9, 4] ∧ w.client.sent = [2, 2] :=
  ⟨_, Lts.Run.of_foldlM_and rfl fun h => ⟨(replenished (by decide) h).1, rfl, rfl⟩⟩

end Sortie.Engine.RequestStreamGrpcClientImpl
