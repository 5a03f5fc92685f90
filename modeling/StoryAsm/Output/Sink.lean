import StoryAsm.Files.Error
import StoryAsm.Output.Segment

/-!
# Sinks

A sink takes the texts of the segments: a segment is created, written and flushed. Each of the
three can fail.
-/

namespace StoryAsm

structure Sink (m : Type → Type) where
  /-- What the file names start with. -/
  base : String
  /-- A frequent-words segment is there already and stays. -/
  keepsFrequentWords : m Bool
  create : Segment → m (Except DiskError Unit)
  write : Segment → String → m (Except DiskError Unit)
  flush : Segment → m (Except DiskError Unit)

/-- The texts of the segments that were created. -/
structure SegmentTexts where
  main : Option String := none
  data : Option String := none
  strings : Option String := none
  frequentWords : Option String := none
  deriving DecidableEq

namespace SegmentTexts

def get (texts : SegmentTexts) : Segment → Option String
  | .main => texts.main
  | .data => texts.data
  | .strings => texts.strings
  | .frequentWords => texts.frequentWords

def set (texts : SegmentTexts) (segment : Segment) (text : String) : SegmentTexts :=
  match segment with
  | .main => { texts with main := some text }
  | .data => { texts with data := some text }
  | .strings => { texts with strings := some text }
  | .frequentWords => { texts with frequentWords := some text }

end SegmentTexts

/-- The stages at which taking a segment can fail. -/
inductive Stage where
  | create
  | write
  | flush
  deriving DecidableEq

namespace Sink

/-- Fail with the fault of a stage, or go on. -/
def orFault (fault : Option DiskError) (action : StateM SegmentTexts Unit) :
    StateM SegmentTexts (Except DiskError Unit) :=
  match fault with
  | some error => return .error error
  | none => do
    action
    return .ok ()

/-- A sink that keeps the texts in memory, with given faults. -/
def memory (base : String) (keepsFrequentWords : Bool)
    (fault : Segment → Stage → Option DiskError) :
    Sink (StateM SegmentTexts) where
  base := base
  keepsFrequentWords := return keepsFrequentWords
  create segment := orFault (fault segment .create) (modify (·.set segment ""))
  write segment text :=
    orFault (fault segment .write) (modify fun texts =>
      texts.set segment ((texts.get segment).getD "" ++ text))
  flush segment := orFault (fault segment .flush) (pure ())

end Sink

end StoryAsm
