import CafPluginSystem.EntityStore.Contract

/-!
# The database contract

What database services answer (`include/common/db_contract.hpp`), common to the SQL backends and
to the entity store that sits on them.
-/

namespace Caf.Database

/-- `error_code`: recovery decisions are made from it, never from an error text. -/
inductive ErrorCode where
  | none | sqlError | connectionUnavailable | connectionLost | transactionLost | outcomeUnknown
  deriving DecidableEq, Repr

/-- `is_connection_error`. -/
def ErrorCode.isConnectionError : ErrorCode → Bool
  | .connectionUnavailable | .connectionLost | .transactionLost | .outcomeUnknown => true
  | _ => false

/-- `db_result`: the members that the stores and services read.  Cells are texts. -/
structure DbResult where
  ok : Bool := false
  error : Bytes := []
  columns : List Bytes := []
  rows : List (List Bytes) := []
  nulls : List (List UInt8) := []
  affected : ℤ := 0
  insertId : Bytes := []
  code : ErrorCode := .none
  deriving DecidableEq, Repr

/-- `is_null`: rows and cells that are not marked hold values. -/
def DbResult.isNull (result : DbResult) (row column : ℕ) : Bool :=
  match result.nulls[row]? with
  | none => false
  | some cells => match cells[column]? with
      | none => false
      | some mark => mark != 0

end Caf.Database
