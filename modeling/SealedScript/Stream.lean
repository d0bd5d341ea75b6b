/-! Output streams. What a device does with a text may depend on everything offered to it before, so
a stream keeps that history. -/

namespace SealedScript

/-- The pieces of a text that a device stored, and its complaint if it did not take or pass on all
of it. -/
structure Reply where
  stored : List String
  failure : Option String
  deriving DecidableEq, Repr

/-- The number of bytes stored. -/
def Reply.size (r : Reply) : Nat :=
  r.stored.foldl (fun n text => n + text.utf8ByteSize) 0

/-- A text offered to a device, with the reply. -/
structure Offer where
  text : String
  reply : Reply
  /-- The number of bytes stored by this offer and all earlier ones. -/
  total : Nat
  deriving DecidableEq, Repr

/-- The number of bytes stored in a history, which its latest offer knows. -/
def storedBytes : List Offer → Nat
  | [] => 0
  | latest :: _ => latest.total

/-- A device replies to a text in view of all earlier offers, the latest first. -/
def Device := List Offer → String → Reply

/-- Stores every text as it comes. -/
def Device.plain : Device := fun _ text => ⟨[text], none⟩

structure Stream where
  device : Device
  /-- All offers so far, the latest first. -/
  history : List Offer

namespace Stream

def new (device : Device) : Stream := ⟨device, []⟩

def reply (s : Stream) (text : String) : Reply :=
  s.device s.history text

def offer (s : Stream) (text : String) : Stream :=
  let reply := s.reply text
  { s with history := ⟨text, reply, storedBytes s.history + reply.size⟩ :: s.history }

/-- Everything stored so far, in order. -/
def written (s : Stream) : List String :=
  s.history.reverse.flatMap (·.reply.stored)

/-- What was stored after the first `n` offers, in order. -/
def writtenAfter (s : Stream) (n : Nat) : List String :=
  (s.history.take (s.history.length - n)).reverse.flatMap (·.reply.stored)

@[simp] theorem written_new (device : Device) : (new device).written = [] := rfl

@[simp] theorem written_offer (s : Stream) (text : String) :
    (s.offer text).written = s.written ++ (s.reply text).stored := by
  simp [written, offer]

theorem storedBytes_offer (s : Stream) (text : String) :
    storedBytes (s.offer text).history = storedBytes s.history + (s.reply text).size := rfl

@[simp] theorem writtenAfter_zero (s : Stream) : s.writtenAfter 0 = s.written := by
  simp [writtenAfter, written]

end Stream

end SealedScript
