import RasterStore.Storage

/-!
# Calls to a storage

What can be asked of a storage, and a run of such calls. A call that fails does not end the run.
-/

namespace RasterStore.Storage

/-- A call that can be made to a storage. -/
inductive Call where
  | read (offset count : Nat)
  | write (offset : Nat) (data : ByteArray)
  | setLength (length : Nat)
  | flush
  | getLength

/-- What a call answers. -/
inductive Answer where
  | done
  | bytes (bytes : ByteArray)
  | length (length : Nat)

/-- Makes the call. -/
def Call.perform : Call → Action Storage Answer
  | .read offset count => do return .bytes (← (← get).read offset count)
  | .write offset data => do Storage.write offset data; return .done
  | .setLength length => do Storage.setLength length; return .done
  | .flush => do Storage.flush; return .done
  | .getLength => do return .length (← get).length

/-- The storage after some calls, whether they succeeded or failed. -/
def performAll (calls : List Call) (storage : Storage) : Storage :=
  calls.foldl (fun reached call => (call.perform.run reached).2) storage

end RasterStore.Storage
