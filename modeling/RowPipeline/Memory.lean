import RowPipeline.Error.Basic

/-!
Accounting of memory in bytes. A job has one account with a limit, and each of its stages holds a
share of what is used, which it gives back when it is done.
-/

namespace RowPipeline

structure MemoryAccount where
  label : String
  limit : Nat
  used : Nat := 0
  peak : Nat := 0
  deriving DecidableEq, Repr

namespace MemoryAccount

/-- The greatest amount that an account can tell; an account with this limit has none. -/
def unlimited : Nat := 0xffffffffffffffff

def after (account : MemoryAccount) (bytes : Nat) : Nat := min (account.used + bytes) unlimited

def refusal (account : MemoryAccount) (bytes : Nat) : ExecutionError :=
  .memoryLimitExceeded account.label bytes account.used account.limit

/-- Reserves all of an amount; `none` if that would exceed the limit. -/
def charge? (account : MemoryAccount) (bytes : Nat) : Option MemoryAccount :=
  let used := account.after bytes
  if account.limit < used then none
  else some { account with used := used, peak := max account.peak used }

def release (account : MemoryAccount) (bytes : Nat) : MemoryAccount :=
  { account with used := account.used - bytes }

end MemoryAccount

structure MemoryShare where
  charged : Nat := 0
  deriving DecidableEq, Repr

namespace MemoryShare

/-- The share and the account after a charge; `none` if the account refuses it. -/
def charge? (share : MemoryShare) (bytes : Nat) (account : MemoryAccount) :
    Option (MemoryShare × MemoryAccount) :=
  (account.charge? bytes).map fun account => (⟨(share.charged + bytes) % (MemoryAccount.unlimited + 1)⟩, account)

/-- Gives back an amount, but never more than the share holds. -/
def release (share : MemoryShare) (bytes : Nat) (account : MemoryAccount) :
    MemoryShare × MemoryAccount :=
  let bytes := min bytes share.charged
  (⟨share.charged - bytes⟩, account.release bytes)

def releaseAll (share : MemoryShare) (account : MemoryAccount) : MemoryShare × MemoryAccount :=
  (⟨0⟩, account.release share.charged)

end MemoryShare

end RowPipeline
