/-
Where the values sent through a channel are, over whole runs.

A `Ledger` keeps beside a channel what was sent, what was received and what the receiver
left behind, while both ends act in any order. The books balance after every act
(`Ledger.Balanced`): everything sent was received, is queued, was left behind or has been
counted as dropped, and what was not dropped is in the order it was sent in.
-/
import SceneEngine.Channel

namespace SceneEngine.Channel

variable {α : Type} {c : Channel α}

/-! ## Acts of both ends -/

/-- Sends a value while a receiver waits. A receiver waits only at an empty queue, and then
the value is taken at once, whether or not the queue has room. -/
def handOver (c : Channel α) (x : α) : Option α × Channel α :=
  if c.connected ∧ c.queue = [] then (some x, c) else (none, c.send x)

/-- What the ends of a channel can do. -/
inductive Act (α : Type) where
  | send (x : α)
  /-- Sends while a receiver waits. -/
  | handOver (x : α)
  | receive
  | drain
  | disconnect

/-- A channel and what has become of the values that are no longer in it. -/
structure Ledger (α : Type) where
  channel : Channel α
  /-- In the order of sending. -/
  sent : List α
  /-- In the order of receiving. -/
  received : List α
  /-- What was queued when the receiver left. -/
  left : List α

namespace Ledger

variable {l : Ledger α}

/-- The ledger of a new channel. -/
def new (capacity : Nat) : Ledger α := ⟨.new capacity, [], [], []⟩

def after (l : Ledger α) : Act α → Ledger α
  | .send x => { l with channel := l.channel.send x, sent := l.sent ++ [x] }
  | .handOver x => { l with
      channel := (l.channel.handOver x).2
      sent := l.sent ++ [x]
      received := l.received ++ (l.channel.handOver x).1.toList }
  | .receive => { l with
      channel := l.channel.receive.2
      received := l.received ++ l.channel.receive.1.toList }
  | .drain => { l with
      channel := l.channel.drain.2
      received := l.received ++ l.channel.drain.1 }
  | .disconnect => { l with
      channel := l.channel.disconnect
      left := l.left ++ l.channel.queue }

def play (l : Ledger α) (acts : List (Act α)) : Ledger α := acts.foldl after l

/-! ## The balance -/

/-- Nothing sent is lost uncounted, and nothing comes twice or out of order. -/
structure Balanced (l : Ledger α) : Prop where
  order : (l.received ++ l.left ++ l.channel.queue).Sublist l.sent
  count : l.sent.length =
    l.received.length + l.channel.queue.length + l.channel.dropped + l.left.length
  /-- Nothing is left behind before the receiver leaves. -/
  present : l.channel.connected = true → l.left = []
  /-- Nothing is queued after that. -/
  gone : l.channel.connected = false → l.channel.queue = []

theorem balanced_new (capacity : Nat) : (new capacity : Ledger α).Balanced :=
  ⟨List.Sublist.refl _, rfl, fun _ => rfl, fun _ => rfl⟩

theorem Balanced.send (h : l.Balanced) (x : α) : (l.after (.send x)).Balanced := by
  by_cases hfits : l.channel.connected = true ∧ l.channel.queue.length < l.channel.capacity
  · have hsent : l.after (.send x) = { l with
        channel := { l.channel with queue := l.channel.queue ++ [x] }, sent := l.sent ++ [x] } := by
      simp only [after, Channel.send, if_pos hfits]
    rw [hsent]
    refine ⟨?_, ?_, h.present, fun hgone => ?_⟩
    · rw [← List.append_assoc]
      exact h.order.append (List.Sublist.refl [x])
    · have := h.count
      simp only [List.length_append, List.length_singleton]
      omega
    · rw [hfits.1] at hgone
      cases hgone
  · have hsent : l.after (.send x) = { l with
        channel := { l.channel with dropped := l.channel.dropped + 1 }, sent := l.sent ++ [x] } := by
      simp only [after, Channel.send, if_neg hfits]
    rw [hsent]
    refine ⟨h.order.trans (List.sublist_append_left _ _), ?_, h.present, h.gone⟩
    have := h.count
    simp only [List.length_append, List.length_singleton]
    omega

theorem Balanced.handOver (h : l.Balanced) (x : α) : (l.after (.handOver x)).Balanced := by
  by_cases hwaits : l.channel.connected = true ∧ l.channel.queue = []
  · have hsent : l.after (.handOver x) = { l with
        sent := l.sent ++ [x], received := l.received ++ [x] } := by
      simp only [after, Channel.handOver, if_pos hwaits, Option.toList_some]
    have hleft := h.present hwaits.1
    have horder := h.order
    rw [hwaits.2, hleft, List.append_nil, List.append_nil] at horder
    rw [hsent]
    refine ⟨?_, ?_, h.present, h.gone⟩
    · simp only [hwaits.2, hleft, List.append_nil]
      exact horder.append (List.Sublist.refl [x])
    · have := h.count
      simp only [List.length_append, List.length_singleton]
      omega
  · -- Nobody waits: the value is sent as any other.
    have hsent : l.after (.handOver x) = l.after (.send x) := by
      simp only [after, Channel.handOver, if_neg hwaits, Option.toList_none, List.append_nil]
    rw [hsent]
    exact h.send x

/-- The receiver takes the first values of the queue. -/
theorem Balanced.take (h : l.Balanced) {taken rest : List α} (hq : l.channel.queue = taken ++ rest) :
    Balanced { l with
      channel := { l.channel with queue := rest }, received := l.received ++ taken } := by
  have horder := h.order
  have hcount := h.count
  rw [hq] at horder hcount
  rw [List.length_append] at hcount
  cases hc : l.channel.connected with
  | true =>
    have hleft := h.present hc
    rw [hleft, List.append_nil] at horder
    refine ⟨?_, ?_, fun _ => hleft, fun hgone => ?_⟩
    · simp only [hleft, List.append_nil, List.append_assoc]
      exact horder
    · simp only [List.length_append]
      omega
    · rw [hc] at hgone
      cases hgone
  | false =>
    -- After the receiver has left there is nothing to take.
    obtain ⟨rfl, rfl⟩ := List.append_eq_nil_iff.mp (hq.symm.trans (h.gone hc))
    refine ⟨?_, ?_, h.present, fun _ => rfl⟩
    · simpa using horder
    · simpa using hcount

theorem Balanced.receive (h : l.Balanced) : (l.after .receive).Balanced := by
  cases hq : l.channel.queue with
  | nil =>
    have hsame : l.after .receive = l := by
      simp only [after, Channel.receive, hq, Option.toList_none, List.append_nil]
    rw [hsame]
    exact h
  | cons x rest =>
    have htaken : l.after .receive = { l with
        channel := { l.channel with queue := rest }, received := l.received ++ [x] } := by
      simp only [after, Channel.receive, hq, Option.toList_some]
    rw [htaken]
    exact h.take hq

theorem Balanced.drain (h : l.Balanced) : (l.after .drain).Balanced :=
  h.take (List.append_nil _).symm

theorem Balanced.disconnect (h : l.Balanced) : (l.after .disconnect).Balanced := by
  have hcount := h.count
  refine ⟨?_, ?_, nofun, fun _ => rfl⟩
  · simpa [after, Channel.disconnect] using h.order
  · simp only [after, Channel.disconnect, List.length_append, List.length_nil]
    omega

theorem Balanced.after (h : l.Balanced) (act : Act α) : (l.after act).Balanced := by
  cases act with
  | send x => exact h.send x
  | handOver x => exact h.handOver x
  | receive => exact h.receive
  | drain => exact h.drain
  | disconnect => exact h.disconnect

theorem Balanced.play (h : l.Balanced) (acts : List (Act α)) : (l.play acts).Balanced := by
  induction acts generalizing l with
  | nil => exact h
  | cons act rest ih => exact ih (h.after act)

theorem Balanced.received (h : l.Balanced) : l.received.Sublist l.sent := by
  have horder := h.order
  rw [List.append_assoc] at horder
  exact (List.sublist_append_left _ _).trans horder

/-! ## Series of sends -/

theorem play_append (first second : List (Act α)) :
    l.play (first ++ second) = (l.play first).play second := List.foldl_append

theorem play_sends (l : Ledger α) (values : List α) : l.play (values.map .send) = { l with
    channel := values.foldl Channel.send l.channel, sent := l.sent ++ values } := by
  induction values generalizing l with
  | nil => simp [play]
  | cons x rest ih =>
    have hcons : l.play ((x :: rest).map .send) = (l.after (.send x)).play (rest.map .send) := rfl
    rw [hcons, ih]
    simp [after]

end Ledger

end SceneEngine.Channel
