/-
Errors and checks of request fields (`error.rs`, `validation.rs`).

A check returns the value that the handlers go on with.
-/
import PqMsg.Server.Text

namespace PqMsg.Server

inductive AppError where
  | badRequest (detail : String)
  | notFound (detail : String)
  | conflict (detail : String)
  | forbidden (detail : String)
  | internal (detail : String)
deriving DecidableEq, Repr

/-- `From<sqlx::Error>` -/
def AppError.database : AppError := .internal "internal database error"

/-! ## Ids -/

def maxUserIdLen : ℕ := 128
def maxDeviceIdLen : ℕ := 128

def validateId (field value : String) : Except AppError Unit :=
  let n := len (trim value)
  if n = 0 ∨ n > maxUserIdLen ∨ n > maxDeviceIdLen then
    .error (.badRequest (field ++ " must be 1..128 non-whitespace characters"))
  else .ok ()

end PqMsg.Server
