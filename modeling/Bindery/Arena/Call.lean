import Bindery.Arena.Allocate

/-!
# Calls on an arena

Every call as a value, and running one: what a sequence of calls does is a statement about lists.
-/

namespace Bindery.Arena

/-- A call on an arena. Values are given as their bytes. -/
inductive Call where
  | create (capacity : Nat)
  | openToRead
  | openToWrite
  | resize (capacity : Nat)
  | trim
  | close
  | remove
  | flush
  | allocate (layout : Layout) (count : Nat)
  | pushAll (layout : Layout) (values : List (List UInt8))
  | push (layout : Layout) (value : List UInt8)
  | pushText (text : String)
  | write (layout : Layout) (offset : Offset) (value : List UInt8)
  | writeAll (layout : Layout) (offset : Offset) (values : List (List UInt8))
  | get (layout : Layout) (offset : Offset)
  | getAll (layout : Layout) (offset : Offset) (count : Nat)
  | getText (offset : Offset)
  | contents

inductive Answer where
  | done
  | offset (o : Offset)
  | bytes (bytes : List UInt8)
  | text (text : String)
  deriving DecidableEq

def Call.run : Call → Action Answer
  | create capacity => do Arena.create capacity; pure .done
  | openToRead => do Arena.openToRead; pure .done
  | openToWrite => do Arena.openToWrite; pure .done
  | resize capacity => do Arena.resize capacity; pure .done
  | trim => do Arena.trim; pure .done
  | close => do Arena.close; pure .done
  | remove => do Arena.remove; pure .done
  | flush => do Arena.flush; pure .done
  | allocate layout count => do pure (.offset (← Arena.allocate layout count))
  | pushAll layout values => do pure (.offset (← Arena.pushAll layout values))
  | push layout value => do pure (.offset (← Arena.push layout value))
  | pushText text => do pure (.offset (← Arena.pushText text))
  | write layout offset value => do Arena.write layout offset value; pure .done
  | writeAll layout offset values => do Arena.writeAll layout offset values; pure .done
  | get layout offset => do pure (.bytes (← look fun s => s.get layout offset))
  | getAll layout offset count => do pure (.bytes (← look fun s => s.getAll layout offset count))
  | getText offset => do pure (.text (← look fun s => s.getText offset))
  | contents => do pure (.bytes (← look State.contents))

end Bindery.Arena
