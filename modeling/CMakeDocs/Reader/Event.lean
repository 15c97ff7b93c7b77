/-!
# Events of a reader

What a reader may announce while it reads, and what follows. A fault stops the reading: with its
own cause if there is one, and otherwise with the place and the message that were announced. An
ambiguity is only noted, and other remarks on the way a choice was made mean nothing.
-/
namespace CMakeDocs

/-- Why a reader announces a fault. -/
inductive FaultCause where
  /-- A token too many or too few. -/
  | repair
  /-- The reader did not know how to go on. -/
  | recognition
  | other (message : String)
deriving DecidableEq, Repr

inductive ReaderEvent where
  | fault (line column : Int) (message : String) (cause : FaultCause)
  /-- Two readings of the same tokens, from a first to a last index. -/
  | ambiguity (start stop : Option Int)
  | remark
deriving DecidableEq, Repr

/-- What follows an event. -/
inductive ReaderResponse where
  | stopAt (line column : Int) (message : String)
  | stopUnrecognized
  | stop (message : String)
  | note (text : String)
  | proceed
deriving DecidableEq, Repr

namespace ReaderEvent

def showIndex : Option Int → String
  | none => "None"
  | some n => toString n

def respond : ReaderEvent → ReaderResponse
  | fault line column message .repair => .stopAt line column message
  | fault _ _ _ .recognition => .stopUnrecognized
  | fault _ _ _ (.other message) => .stop message
  | ambiguity start stop =>
    .note ("Found parse ambiguity at starting index " ++ showIndex start ++ ", stop index " ++
      showIndex stop)
  | remark => .proceed

end ReaderEvent

end CMakeDocs
