/-!
# Bounded queues

A queue holds as many messages as it has room for. Whoever sends to a full queue waits in line, and
as soon as a message is taken the first in line gets its place. Messages therefore leave in the
order in which they were sent. Once the receiver is gone, messages that nobody has taken are lost,
and senders, waiting or not, are refused.

Senders that wait are told apart by a number. `Queue.contents` is what a queue holds together with
what waits in line; sending appends to it and taking takes from its front.
-/

namespace PluginKernel

/-- A queue between senders and a receiver. -/
structure Queue (α : Type) where
  /-- How many messages there is room for. -/
  capacity : Nat
  /-- The messages that can be taken, oldest first. -/
  buffer : List α := []
  /-- The senders that wait in line, each with its message. -/
  waiting : List (Nat × α) := []
  /-- Whether there is a receiver. -/
  hasReceiver : Bool := true
  /-- Whether there may be further messages. -/
  hasSender : Bool := true

/-- What becomes of a message for which nobody waits. -/
inductive Offer where
  /-- It is in the queue. -/
  | sent
  /-- There is no room. -/
  | full
  /-- There is no receiver. -/
  | closed
deriving DecidableEq, Repr

/-- What becomes of a message whose sender waits if it must. -/
inductive Sending (α : Type) where
  | sent (q : Queue α)
  /-- Its sender is in line. -/
  | waits (q : Queue α)
  /-- There is no receiver. -/
  | refused

namespace Queue

variable {α : Type}

/-- A queue without messages. -/
def empty (capacity : Nat) : Queue α := { capacity }

/-- All messages on their way, oldest first. -/
def contents (q : Queue α) : List α := q.buffer ++ q.waiting.map (·.2)

/-- Whether a message can be put into the queue. -/
def hasRoom (q : Queue α) : Bool := q.buffer.length < q.capacity

/-- Put a message into the queue. -/
def push (q : Queue α) (x : α) : Queue α := { q with buffer := q.buffer ++ [x] }

/-- Send a message without waiting. -/
def offer (q : Queue α) (x : α) : Offer × Queue α :=
  if !q.hasReceiver then (.closed, q)
  else if q.hasRoom then (.sent, q.push x)
  else (.full, q)

/-- Send a message and wait in line, under a number, if there is no room. -/
def send (q : Queue α) (sender : Nat) (x : α) : Sending α :=
  if !q.hasReceiver then .refused
  else if q.hasRoom then .sent (q.push x)
  else .waits { q with waiting := q.waiting ++ [(sender, x)] }

/-- Whether a sender waits in line. -/
def isWaiting (q : Queue α) (sender : Nat) : Bool := q.waiting.any (·.1 == sender)

/-- What a sender that has been put in line finds: nothing as long as it has to wait; else whether
its message was put into the queue, and the queue without it in line. -/
def resume? (q : Queue α) (sender : Nat) : Option (Bool × Queue α) :=
  if !q.isWaiting sender then some (true, q)
  else if q.hasReceiver then none
  else some (false, { q with waiting := q.waiting.filter (·.1 != sender) })

/-- Take up to a number of messages. Their places go to the first in line. -/
def take (q : Queue α) (n : Nat) : List α × Queue α :=
  let rest := q.buffer.drop n
  let room := q.capacity - rest.length
  (q.buffer.take n,
    { q with
      buffer := rest ++ (q.waiting.take room).map (·.2)
      waiting := q.waiting.drop room })

/-- Take one message. -/
def next? (q : Queue α) : Option (α × Queue α) :=
  match q.buffer with
  | [] => none
  | x :: _ => some (x, (q.take 1).2)

/-- Let the receiver go. -/
def dropReceiver (q : Queue α) : Queue α := { q with buffer := [], hasReceiver := false }

/-- Let the last sender go. -/
def dropSender (q : Queue α) : Queue α := { q with hasSender := false }

@[simp] theorem contents_empty (n : Nat) : (empty n : Queue α).contents = [] := rfl

/-- A message that is sent while nobody waits goes to the end. -/
theorem contents_send_sent {q q' : Queue α} {t : Nat} {x : α} (hw : q.waiting = [])
    (h : q.send t x = .sent q') : q'.contents = q.contents ++ [x] := by
  unfold send at h
  split at h
  · cases h
  · split at h
    · cases h; simp [contents, push, hw]
    · cases h

/-- A message whose sender waits goes to the end. -/
theorem contents_send_waits {q q' : Queue α} {t : Nat} {x : α} (h : q.send t x = .waits q') :
    q'.contents = q.contents ++ [x] := by
  unfold send at h
  split at h
  · cases h
  · split at h
    · cases h
    · cases h; simp [contents]

/-- Nothing is lost or reordered by taking messages. -/
theorem take_append_contents (q : Queue α) (n : Nat) :
    (q.take n).1 ++ (q.take n).2.contents = q.contents := by
  simp only [take, contents, List.append_assoc]
  rw [← List.append_assoc, List.take_append_drop, ← List.map_append, List.take_append_drop]

/-- Taking one message takes the oldest. -/
theorem contents_of_next? {q q' : Queue α} {x : α} (h : q.next? = some (x, q')) :
    q.contents = x :: q'.contents := by
  unfold next? at h
  split at h
  · cases h
  · next y rest hb =>
    cases h
    rw [← take_append_contents q 1]
    simp [take, hb]

end Queue

end PluginKernel
