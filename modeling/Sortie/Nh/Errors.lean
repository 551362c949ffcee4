import Sortie.Lib.Duration
import Sortie.Lib.Text

/-!
# Errors of the control plane

The errors internal/nh returns, with what the callers look for inside them:
`errors.As` for a `*BusyError`, `errors.Is` for the two errors of a context, and the
code `status.Code` finds. An error from the network is not sortie's own; it is a
`status` with any code and message.
-/

namespace Sortie.Nh

/-- `codes.Code`, as the number on the wire. -/
abbrev Code := UInt32

namespace Code

def ok : Code := 0
def canceled : Code := 1
def unknown : Code := 2
def deadlineExceeded : Code := 4
def resourceExhausted : Code := 8

/-- The names of the codes from 0 on. -/
def names : List String :=
  ["OK", "Canceled", "Unknown", "InvalidArgument", "DeadlineExceeded", "NotFound",
    "AlreadyExists", "PermissionDenied", "ResourceExhausted", "FailedPrecondition", "Aborted",
    "OutOfRange", "Unimplemented", "Internal", "Unavailable", "DataLoss", "Unauthenticated"]

/-- `Code.String`. -/
def text (c : Code) : String :=
  (names[c.toNat]?).getD ("Code(" ++ toString c.toNat ++ ")")

end Code

/-- How a context ends: `context.Canceled` or `context.DeadlineExceeded`. -/
inductive CtxErr where
  | canceled | deadlineExceeded
  deriving DecidableEq, Repr

def CtxErr.text : CtxErr → String
  | .canceled => "context canceled"
  | .deadlineExceeded => "context deadline exceeded"

/-- A Go error, by what can be found in it. -/
inductive GoError where
  | message (text : String)
  /-- `fmt.Errorf` with a `%w` between two pieces of text -/
  | wrap (before : String) (err : GoError) (after : String)
  | ctx (err : CtxErr)
  | status (code : Code) (desc : String)
  /-- `*BusyError` -/
  | busy (max : Int) (err : GoError)
  deriving DecidableEq, Repr

/-- `BusyError`: a start the service refused, running as many executions as it allows. -/
structure BusyError where
  /-- how many executions the service runs at once, 0 when it did not say so legibly -/
  max : Int
  err : GoError
  deriving DecidableEq, Repr

namespace GoError

/-- How many executions an engine runs at once, in the words of its refusals. -/
def capText (max : Int) : String :=
  if 0 < max then "its cap of " ++ toString max ++ " concurrent executions"
  else "its cap of concurrent executions"

/-- `Error()`. -/
def text : GoError → String
  | .message t => t
  | .wrap before err after => before ++ err.text ++ after
  | .ctx err => err.text
  | .status code desc => "rpc error: code = " ++ code.text ++ " desc = " ++ desc
  | .busy max err => "the service refused the start: it is at " ++ capText max
      ++ " (" ++ err.text ++ ")"

/-- `errors.As` for a `*BusyError`. -/
def asBusy : GoError → Option BusyError
  | .busy max err => some ⟨max, err⟩
  | .wrap _ err _ => err.asBusy
  | _ => none

/-- `errors.Is(err, context.DeadlineExceeded)`. -/
def isDeadlineExceeded : GoError → Bool
  | .ctx err => err == .deadlineExceeded
  | .wrap _ err _ | .busy _ err => err.isDeadlineExceeded
  | _ => false

/-- `status.Code` of an error that is not nil: that of the status it wraps. -/
def code : GoError → Code
  | .status code _ => code
  | .wrap _ err _ | .busy _ err => err.code
  | _ => .unknown

end GoError

/-! ## Refusals at the execution cap -/

/-- `strconv.Atoi` of digits, where what does not fit is the largest `int`. -/
def atoi (digits : List Char) : Int := Int.ofNat (min (Text.digitsValue digits) (2 ^ 63 - 1))

/-- The digits of the first match of `Busy: (\d+) executions are running, …`. -/
def busyDigits : List Char → Option (List Char)
  | [] => none
  | c :: cs =>
    let here := do
      let after ← Text.cutPrefix (String.ofList (c :: cs)) "Busy: "
      let digits := after.toList.takeWhile Char.isDigit
      let rest := String.ofList (after.toList.dropWhile Char.isDigit)
      if digits ≠ []
          ∧ Text.hasPrefix rest " executions are running, the maximum this service allows" then
        some digits
      else none
    here.or (busyDigits cs)

def busySingleMessage : String := "Only a single benchmark session is allowed at a time."

/-- The cap a refusal's message gives, if it is one. -/
def busyMax (message : String) : Option Int :=
  match busyDigits message.toList with
  | some digits => some (atoi digits)
  | none => if (Text.cut message busySingleMessage).isSome then some 1 else none

/-- `busyFromStatus`: a refusal handed on by a distributor, told by its code and its wording. -/
def busyFromStatus (code : Code) (message : String) : Option BusyError :=
  if code ≠ Code.resourceExhausted then none
  else (busyMax message).map fun max => ⟨max, .status Code.resourceExhausted message⟩

end Sortie.Nh
