import Sortie.Engine.WebSocketEchoFilter
import Sortie.Proof.WebSocket

/-!
# What the echo server answers

The decoder leaves bytes that make no whole frame in the buffer for the next call, but the
filter has no buffer: they are gone with the chunk. So it echoes every frame when no chunk
ends inside of one, and when one does it loses the frame and takes the rest of its bytes
for a header.
-/

namespace Sortie.Engine.WebSocketEchoFilter

open Sortie.Engine.WebSocket Incremental

variable {s : WebSocketEchoFilter}

/-- What is to be sent for a frame, with `end_stream`: a data frame as it is, a Pong for a Ping, and
a Close for a Close. -/
def answer (frame : Frame) : Option (Frame × Bool) :=
  match frame.opcode with
  | .text | .binary | .continuation => some (frame, false)
  | .ping => some ({ frame with opcode := .pong }, false)
  | .pong => none
  | .close => some (frame, true)

def isClose (frame : Frame) : Bool := decide (frame.opcode = .close)

/-- What is to be sent for frames. A Close is the last to be answered. -/
def answers : List Frame → List (Frame × Bool)
  | [] => []
  | frame :: frames => (answer frame).toList ++ if isClose frame then [] else answers frames

/-- The calls of `encodeData` that send them, unmasked. -/
def encoded (xs : List (Frame × Bool)) : List (List UInt8 × Bool) :=
  xs.map (fun x => (encodeFrame x.1 none, x.2))

theorem encoded_append (xs ys : List (Frame × Bool)) :
    encoded (xs ++ ys) = encoded xs ++ encoded ys := List.map_append

/-- After a Close nothing is answered. -/
theorem answers_append (frames more : List Frame) :
    answers (frames ++ more)
      = if frames.any isClose then answers frames else answers frames ++ answers more := by
  induction frames with
  | nil => rfl
  | cons frame frames ih =>
    rw [List.cons_append, List.any_cons, answers, answers, ih]
    cases isClose frame with
    | true => rfl
    | false =>
      rw [Bool.false_or]
      simp only [Bool.false_eq_true, if_false]
      split
      · rfl
      · rw [List.append_assoc]

theorem echo_cons (frame : Frame) (frames : List Frame) :
    echo (frame :: frames) s
      = if isClose frame then (s.send frame true, false)
        else echo frames (match answer frame with
          | none => s
          | some a => s.send a.1 false) := by
  rw [echo]
  unfold isClose answer
  cases frame.opcode <;> rfl

theorem answer_of_isClose {frame : Frame} (h : isClose frame = true) :
    answer frame = some (frame, true) := by
  unfold answer
  rw [of_decide_eq_true h]

theorem answer_of_not_isClose {frame : Frame} (h : isClose frame = false) {a : Frame × Bool}
    (ha : answer frame = some a) : a.2 = false := by
  unfold answer at ha
  cases hop : frame.opcode <;> rw [hop] at ha
  case close =>
    unfold isClose at h
    rw [hop] at h
    cases h
  case pong => cases ha
  all_goals
    cases ha
    rfl

/-- A filter that has answered the frames it has received. -/
structure Answered (frames : List Frame) (s : WebSocketEchoFilter) : Prop where
  upgraded : s.upgraded = true
  closed : s.closed = frames.any isClose
  sent : s.sent = encoded (answers frames)

theorem Answered.of_closed {frames : List Frame} (h : Answered frames s) (hc : s.closed = true)
    (more : List Frame) : Answered (frames ++ more) s := by
  have hclose := h.closed.symm.trans hc
  refine ⟨h.upgraded, ?_, ?_⟩
  · rw [List.any_append, hclose, hc]
    rfl
  · rw [answers_append, if_pos hclose]
    exact h.sent

theorem send_of_open (hopen : s.closed = false) (frame : Frame) (last : Bool) :
    s.send frame last
      = { s with closed := last, sent := s.sent ++ [(encodeFrame frame none, last)] } := by
  unfold send
  rw [if_neg (by rw [hopen]; exact Bool.false_ne_true)]

theorem Answered.echo {frames : List Frame} (h : Answered frames s) (hopen : s.closed = false)
    (more : List Frame) : Answered (frames ++ more) (echo more s).1 := by
  induction more generalizing s frames with
  | nil =>
    rw [List.append_nil]
    exact h
  | cons frame more ih =>
    have hnone := h.closed.symm.trans hopen
    have hsnoc : answers (frames ++ [frame]) = answers frames ++ (answer frame).toList := by
      rw [answers_append, if_neg (by rw [hnone]; exact Bool.false_ne_true), answers]
      cases isClose frame <;> exact congrArg _ (List.append_nil _)
    have hany : (frames ++ [frame]).any isClose = isClose frame := by
      rw [List.any_append, hnone, List.any_cons, List.any_nil, Bool.or_false, Bool.false_or]
    rw [List.append_cons, echo_cons]
    cases hc : isClose frame with
    | true =>
      -- the rest is not looked at
      rw [if_pos rfl, send_of_open hopen]
      have hlast : Answered (frames ++ [frame])
          { s with closed := true, sent := s.sent ++ [(encodeFrame frame none, true)] } := by
        refine ⟨h.upgraded, ?_, ?_⟩
        · rw [hany, hc]
        · rw [hsnoc, answer_of_isClose hc, h.sent, encoded_append]
          rfl
      exact hlast.of_closed rfl more
    | false =>
      rw [if_neg Bool.false_ne_true]
      rw [hc] at hany
      cases ha : answer frame with
      | none =>
        rw [ha] at hsnoc
        refine ih ⟨h.upgraded, ?_, ?_⟩ hopen
        · rw [hany, hopen]
        · rw [hsnoc, h.sent]
          exact congrArg encoded (List.append_nil _).symm
      | some a =>
        rw [ha] at hsnoc
        dsimp only
        rw [send_of_open hopen]
        refine ih ⟨h.upgraded, hany.symm, ?_⟩ rfl
        have hlast := answer_of_not_isClose hc ha
        rw [hsnoc, h.sent, encoded_append, ← hlast]
        rfl

/-- A masked frame of a client, with its key. -/
abbrev ClientFrame := Frame × MaskKey

def encodeClientFrames (frames : List ClientFrame) : List UInt8 :=
  encodeFrames (frames.map (fun f => (f.1, some f.2)))

/-- No chunk ends inside of a frame: each is the encoding of whole frames. -/
def WholeFrames (frames : List ClientFrame) (chunks : List (List UInt8)) : Prop :=
  ∃ groups : List (List ClientFrame), groups.flatten = frames
    ∧ chunks = groups.map encodeClientFrames

theorem feed_encodeClientFrames {frames : List ClientFrame} (hframes : ∀ f ∈ frames, f.1.Valid) :
    Decoder.feed (encodeClientFrames frames) = ⟨true, frames.map Prod.fst, []⟩ := by
  have hvalid : ∀ f ∈ frames.map (fun f => (f.1, some f.2)), f.1.Valid := by
    intro f hf
    obtain ⟨g, hg, rfl⟩ := List.mem_map.mp hf
    exact hframes g hg
  have hfed := feed_encodeFrames hvalid
  rw [List.map_map] at hfed
  exact hfed

theorem Answered.receive {done : List Frame} (h : Answered done s) {group : List ClientFrame}
    (hgroup : ∀ f ∈ group, f.1.Valid) :
    Answered (done ++ group.map Prod.fst) (s.receive (encodeClientFrames group)) := by
  unfold WebSocketEchoFilter.receive decodeData
  rw [h.upgraded, feed_encodeClientFrames hgroup]
  cases hclosed : s.closed with
  | true => exact h.of_closed hclosed _
  | false =>
    have hechoed := h.echo hclosed (group.map Prod.fst)
    dsimp only [Bool.not_true, Bool.or_self]
    generalize WebSocketEchoFilter.echo (group.map Prod.fst) s = r at hechoed
    obtain ⟨t, b⟩ := r
    cases b <;> exact hechoed

/-- A run of the filter over chunks that hold whole frames. -/
theorem answered_run {groups : List (List ClientFrame)} (hgroups : ∀ f ∈ groups.flatten, f.1.Valid)
    {done : List Frame} (h : Answered done s) :
    Answered (done ++ groups.flatten.map Prod.fst)
      ((groups.map encodeClientFrames).foldl WebSocketEchoFilter.receive s) := by
  induction groups generalizing s done with
  | nil =>
    rw [List.flatten_nil, List.map_nil, List.append_nil]
    exact h
  | cons group groups ih =>
    rw [List.flatten_cons] at hgroups ⊢
    rw [List.map_append, ← List.append_assoc]
    refine ih (fun f hf => hgroups f (List.mem_append_right _ hf)) (h.receive (fun f hf => ?_))
    exact hgroups f (List.mem_append_left _ hf)

/-- When no chunk ends inside of a frame the filter answers every frame, and sends nothing else. -/
theorem sent_of_wholeFrames {frames : List ClientFrame} (hframes : ∀ f ∈ frames, f.1.Valid)
    {chunks : List (List UInt8)} (hwhole : WholeFrames frames chunks) :
    (chunks.foldl receive { upgraded := true }).sent = encoded (answers (frames.map Prod.fst)) := by
  obtain ⟨groups, rfl, rfl⟩ := hwhole
  have hstart : Answered [] { upgraded := true } := ⟨rfl, rfl, rfl⟩
  exact (answered_run hframes hstart).sent

/-- A ping, and then a text and a Close. -/
def pingTextClose : List (List ClientFrame) :=
  [[({ opcode := .ping, payload := [1] }, fun _ => 7)],
    [({ opcode := .text, payload := [2] }, fun _ => 9), ({ opcode := .close }, fun _ => 3)]]

theorem sent_pingTextClose :
    ((pingTextClose.map encodeClientFrames).foldl receive { upgraded := true }).sent
      = encoded
        [({ opcode := .pong, payload := [1] }, false), ({ opcode := .text, payload := [2] }, false),
          ({ opcode := .close }, true)] := by
  refine sent_of_wholeFrames (fun f hf => ?_) ⟨pingTextClose, rfl, rfl⟩
  simp only [pingTextClose, List.flatten_cons, List.flatten_nil, List.append_nil, List.cons_append,
    List.nil_append, List.mem_cons, List.not_mem_nil, or_false] at hf
  rcases hf with rfl | rfl | rfl <;> exact ⟨by decide, by decide⟩

/-- A text frame in two chunks is not echoed: its header is lost, and what follows is taken for one
that is wrong. -/
theorem unechoed_when_cut :
    [[0x81, 0x81, 1], [2, 3, 4, 0x40]].flatten
        = encodeClientFrames
          [({ opcode := .text, payload := [0x41] }, fun i => UInt8.ofNat (i + 1))]
      ∧ ([[0x81, 0x81, 1], [2, 3, 4, 0x40]].foldl receive { upgraded := true }).sent
        ≠ encoded (answers [{ opcode := .text, payload := [0x41] }]) := by
  decide

end Sortie.Engine.WebSocketEchoFilter
