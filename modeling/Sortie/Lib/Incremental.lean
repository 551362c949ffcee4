import Mathlib.Data.List.Basic
import Mathlib.Order.Basic

/-!
# Incremental decoders

A decoder reads items off the front of the bytes it was given so far. What is there may
not make a whole item yet, and then it waits for more. Or it is wrong, and no bytes after
it can make it right. Bytes that make no whole item are left for the next call.

A decoder is steady when more bytes change nothing about what it has read. The results
are about steady decoders: what they read does not depend on how the bytes were cut into
chunks.
-/

namespace Incremental

variable {α β : Type*}

/-- What is at the front of the bytes. -/
inductive Read (α β : Type*) where
  | wait
  | error
  | item (x : β) (rest : List α)

/-- What one call of the decoder has read, and the bytes it left. After an error there are none. -/
structure Fed (α β : Type*) where
  ok : Bool
  items : List β
  rest : List α
  deriving DecidableEq, Repr

/-- The items in front of those of a later call. -/
def Fed.after (d : Fed α β) (items : List β) : Fed α β := { d with items := items ++ d.items }

section Feed

variable (read : List α → Read α β)

def loop : Nat → List α → Fed α β
  | 0, bytes => ⟨true, [], bytes⟩
  | turns + 1, bytes =>
    match read bytes with
    | .wait => ⟨true, [], bytes⟩
    | .error => ⟨false, [], []⟩
    | .item x rest => (loop turns rest).after [x]

/-- Reads every whole item. Each takes a byte at least, so there are turns enough. -/
def feed (bytes : List α) : Fed α β := loop read (bytes.length + 1) bytes

/-- The calls for chunks that arrive one by one, behind what the call before has left. -/
def feeds : List α → List (List α) → List (Fed α β)
  | _, [] => []
  | buffer, chunk :: chunks =>
    feed read (buffer ++ chunk) :: feeds (feed read (buffer ++ chunk)).rest chunks

/-- More bytes change nothing about what was read. -/
structure Steady : Prop where
  item : ∀ {bytes x rest} (more : List α), read bytes = .item x rest →
    read (bytes ++ more) = .item x (rest ++ more)
  error : ∀ {bytes} (more : List α), read bytes = .error → read (bytes ++ more) = .error
  shorter : ∀ {bytes x rest}, read bytes = .item x rest → rest.length < bytes.length

/-- An item is read off the bytes in front of what is left, and they are enough to read it. -/
def Exact : Prop :=
  ∀ {bytes x rest}, read bytes = .item x rest → ∃ used, bytes = used ++ rest
    ∧ read used = .item x []

/-- The bytes are these items, one after another. -/
def Pieces (pieces : List (β × List α)) : Prop := ∀ p ∈ pieces, read p.2 = .item p.1 []

end Feed

variable {read : List α → Read α β} {bytes : List α}

theorem after_after (d : Fed α β) (xs ys : List β) :
    (d.after ys).after xs = d.after (xs ++ ys) := by
  unfold Fed.after
  rw [List.append_assoc]

theorem loop_of_lt (h : Steady read) {n m : Nat} (hn : bytes.length < n) (hm : bytes.length < m) :
    loop read n bytes = loop read m bytes := by
  induction n generalizing m bytes with
  | zero => exact absurd hn (Nat.not_lt_zero _)
  | succ n ih =>
    obtain ⟨m, rfl⟩ : ∃ k, m = k + 1 := ⟨m - 1, by omega⟩
    unfold loop
    cases hread : read bytes with
    | wait => rfl
    | error => rfl
    | item x rest =>
      have := h.shorter hread
      dsimp only
      rw [ih (by omega) (m := m) (by omega)]

theorem feed_of_wait (hread : read bytes = .wait) : feed read bytes = ⟨true, [], bytes⟩ := by
  unfold feed loop
  rw [hread]

theorem feed_of_error (hread : read bytes = .error) : feed read bytes = ⟨false, [], []⟩ := by
  unfold feed loop
  rw [hread]

section

variable (h : Steady read)
include h

theorem feed_of_item {x : β} {rest : List α} (hread : read bytes = .item x rest) :
    feed read bytes = (feed read rest).after [x] := by
  have hlt := h.shorter hread
  unfold feed
  rw [loop, hread]
  dsimp only
  rw [loop_of_lt h (by omega) (Nat.lt_succ_self rest.length)]

/-- The induction that follows the decoder: it waits, it fails, or it reads an item and goes on. -/
theorem feed_induction {P : List α → Prop} (wait : ∀ bytes, read bytes = .wait → P bytes)
    (error : ∀ bytes, read bytes = .error → P bytes)
    (item : ∀ bytes x rest, read bytes = .item x rest → P rest → P bytes) (bytes : List α) :
    P bytes := by
  induction hn : bytes.length using Nat.strongRecOn generalizing bytes with
  | ind n ih =>
    cases hread : read bytes with
    | wait => exact wait bytes hread
    | error => exact error bytes hread
    | item x rest =>
      have hlt := h.shorter hread
      exact item bytes x rest hread (ih rest.length (by omega) rest rfl)

/-- **What was read stays read**, and more bytes are read behind what was left. -/
theorem feed_append (bytes more : List α) :
    feed read (bytes ++ more)
      = if (feed read bytes).ok then
          (feed read ((feed read bytes).rest ++ more)).after (feed read bytes).items
        else feed read bytes := by
  induction bytes using feed_induction h with
  | wait bytes hread =>
    rw [feed_of_wait hread]
    rfl
  | error bytes hread =>
    rw [feed_of_error hread, feed_of_error (h.error more hread)]
    rfl
  | item bytes x rest hread ih =>
    rw [feed_of_item h hread, feed_of_item h (h.item more hread), ih]
    show Fed.after (if (feed read rest).ok then _ else _) [x] = if (feed read rest).ok then _ else _
    split
    · exact after_after _ _ _
    · rfl

/-- Nothing that could be read is left. -/
theorem read_rest (bytes : List α) (hok : (feed read bytes).ok = true) :
    read (feed read bytes).rest = .wait := by
  induction bytes using feed_induction h with
  | wait bytes hread =>
    rw [feed_of_wait hread]
    exact hread
  | error bytes hread =>
    rw [feed_of_error hread] at hok
    cases hok
  | item bytes x rest hread ih =>
    rw [feed_of_item h hread] at hok ⊢
    exact ih hok

/-- After an error nothing is left. -/
theorem rest_of_error (bytes : List α) (hok : (feed read bytes).ok = false) :
    (feed read bytes).rest = [] := by
  induction bytes using feed_induction h with
  | wait bytes hread =>
    rw [feed_of_wait hread] at hok
    cases hok
  | error bytes hread => rw [feed_of_error hread]
  | item bytes x rest hread ih =>
    rw [feed_of_item h hread] at hok ⊢
    exact ih hok

/-- Whole items in front are read first. -/
theorem feed_pieces {pieces : List (β × List α)} (hpieces : Pieces read pieces) (tail : List α) :
    feed read ((pieces.map Prod.snd).flatten ++ tail)
      = (feed read tail).after (pieces.map Prod.fst) := by
  induction pieces with
  | nil => rfl
  | cons p pieces ih =>
    have hp := h.item ((pieces.map Prod.snd).flatten ++ tail) (hpieces p List.mem_cons_self)
    rw [List.map_cons, List.flatten_cons, List.append_assoc, feed_of_item h hp, List.nil_append,
      ih fun q hq => hpieces q (List.mem_cons_of_mem p hq), after_after]
    rfl

/-- The bytes are those of the items and what is behind them: what is left, or what is wrong. -/
theorem pieces_of_feed (he : Exact read) (bytes : List α) :
    ∃ pieces tail, bytes = (pieces.map Prod.snd).flatten ++ tail ∧ Pieces read pieces
      ∧ pieces.map Prod.fst = (feed read bytes).items
      ∧ if (feed read bytes).ok then tail = (feed read bytes).rest else read tail = .error := by
  induction bytes using feed_induction h with
  | wait bytes hread =>
    rw [feed_of_wait hread]
    exact ⟨[], bytes, rfl, nofun, rfl, rfl⟩
  | error bytes hread =>
    rw [feed_of_error hread]
    exact ⟨[], bytes, rfl, nofun, rfl, hread⟩
  | item bytes x rest hread ih =>
    rw [feed_of_item h hread]
    obtain ⟨pieces, tail, rfl, hpieces, hitems, htail⟩ := ih
    obtain ⟨used, rfl, hused⟩ := he hread
    refine ⟨(x, used) :: pieces, tail, ?_, List.forall_mem_cons.mpr ⟨hused, hpieces⟩, ?_, htail⟩
    · rw [List.map_cons, List.flatten_cons, List.append_assoc]
    · rw [List.map_cons, hitems]
      rfl

/-- **However the bytes are cut**, if they can be read then every call succeeds, and together the
calls read what one call would. -/
theorem feeds_of_ok {buffer : List α} (hbuffer : read buffer = .wait) (chunks : List (List α))
    (hok : (feed read (buffer ++ chunks.flatten)).ok = true) :
    (∀ d ∈ feeds read buffer chunks, d.ok = true)
      ∧ (feeds read buffer chunks).flatMap Fed.items = (feed read (buffer ++ chunks.flatten)).items
      ∧ ((feeds read buffer chunks).map Fed.rest).getLastD buffer
        = (feed read (buffer ++ chunks.flatten)).rest := by
  induction chunks generalizing buffer with
  | nil =>
    rw [List.flatten_nil, List.append_nil, feed_of_wait hbuffer]
    exact ⟨nofun, rfl, rfl⟩
  | cons chunk chunks ih =>
    have happend := feed_append h (buffer ++ chunk) chunks.flatten
    rw [List.flatten_cons, ← List.append_assoc] at hok ⊢
    -- a call that fails makes all of it fail
    have hfirst : (feed read (buffer ++ chunk)).ok = true := by
      by_contra hn
      rw [happend, if_neg hn] at hok
      exact hn hok
    rw [if_pos hfirst] at happend
    rw [happend] at hok ⊢
    obtain ⟨hall, hitems, hrest⟩ := ih (read_rest h _ hfirst) hok
    refine ⟨fun d hd => ?_, ?_, ?_⟩
    · rcases List.mem_cons.mp hd with rfl | hd
      · exact hfirst
      · exact hall d hd
    · rw [feeds, List.flatMap_cons, hitems]
      rfl
    · rw [feeds, List.map_cons, List.getLastD_cons, hrest]
      rfl

end

end Incremental
