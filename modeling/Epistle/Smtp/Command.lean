import Epistle.Text.Format

/-!
# SMTP command lines

A line is a verb and its arguments. The parser is strict: lines have a length limit and no control
characters, and a parameter that is unknown, repeated or malformed makes the whole command fail.
Each failure has its own error, because each has its own reply.
-/

namespace Epistle.Smtp

open TextFormat

def maxCommandLine : ℕ := 512

inductive Body
  | sevenBit
  | eightBitMime
  deriving DecidableEq, Repr

inductive Ret
  | full
  | headers
  deriving DecidableEq, Repr

inductive Notify
  | never
  | on (success failure delay : Bool)
  deriving DecidableEq, Repr

inductive Command
  | helo (domain : Text)
  | ehlo (domain : Text)
  | mailFrom (reversePath : Text) (size : Option ℕ) (body : Option Body) (requireTls : Bool)
      (ret : Option Ret) (envid : Option Text)
  | rcptTo (forwardPath : Text) (notify : Option Notify) (orcpt : Option Text)
  | data
  | bdat (size : ℕ) (last : Bool)
  | rset
  | noop
  | quit
  | vrfy
  | startTls
  | auth (mechanism : Text) (initial : Option Text)
  deriving DecidableEq, Repr

inductive ParseError
  | lineTooLong
  | invalidCharacters
  | unknownCommand
  | invalidArguments
  | unsupportedParameter
  deriving DecidableEq, Repr

namespace Command

abbrev Parse (α : Type) : Type := Except ParseError α

/-- The value, or the error for malformed arguments. -/
def orInvalid {α : Type} : Option α → Parse α
  | some value => .ok value
  | none => .error .invalidArguments

def parseU64 (t : Text) : Option ℕ := (parseDecimal t).filter (· < 2 ^ 64)

/-- Whether a keyword is the given one, up to case. -/
def isKeyword (t : Text) (keyword : String) : Bool := toAsciiUppercase t == keyword.toList

def parseBdat (args : Text) : Parse Command :=
  match splitAsciiWhitespace args with
  | [] => .error .invalidArguments
  | size :: rest => do
    let size ← orInvalid (parseU64 size)
    match rest with
    | [] => pure (.bdat size false)
    | [token] => if isKeyword token "LAST" then pure (.bdat size true) else .error .invalidArguments
    | _ => .error .invalidArguments

/-- The characters of a mechanism name. -/
def validMech (mechanism : Text) : Bool :=
  mechanism.all fun c ↦ c.isAlphanum || c == '-' || c == '_'

/-- `AUTH <mechanism> [initial-response]`; an initial response of `=` is an empty one. -/
def parseAuth (args : Text) : Parse Command :=
  let command (mechanism : Text) (initial : Option Text) : Parse Command :=
    if validMech mechanism then .ok (.auth (toAsciiUppercase mechanism) initial)
    else .error .invalidArguments
  match splitAsciiWhitespace args with
  | [mechanism] => command mechanism none
  | [mechanism, initial] => command mechanism (some (if initial == ['='] then [] else initial))
  | _ => .error .invalidArguments

def parseNoArgs (args : Text) (command : Command) : Parse Command :=
  if args.isEmpty then .ok command else .error .invalidArguments

def parseDomainArg (args : Text) : Parse Text :=
  if args.isEmpty || args.contains ' ' then .error .invalidArguments else .ok args

/-- `FROM:<path>` and `TO:<path>`: the path and the parameters after it. -/
def parsePathArg (args : Text) (beginning : String) : Parse (Text × Text) :=
  if !isKeyword (args.take beginning.length) beginning then .error .invalidArguments
  else match trimStart (args.drop beginning.length) with
    | '<' :: afterOpen =>
      match splitOnce '>' afterOpen with
      | none => .error .invalidArguments
      | some (path, afterClose) =>
        if path.contains '<' || path.contains '>' || path.contains ' ' then .error .invalidArguments
        else if !afterClose.isEmpty && afterClose.head? != some ' ' then .error .invalidArguments
        else .ok (path, trim afterClose)
    | _ => .error .invalidArguments

/-- The parameters of a command, as keywords and optional values. -/
def splitParameters (params : Text) : Parse (List (Text × Option Text)) :=
  (splitAsciiWhitespace params).mapM fun parameter ↦
    let (keyword, value) := match splitOnce '=' parameter with
      | some (keyword, value) => (keyword, some value)
      | none => (parameter, none)
    if keyword.isEmpty || !keyword.all fun c ↦ c.isAlphanum || c == '-' then
      .error .invalidArguments
    else .ok (keyword, value)

structure MailParams where
  size : Option ℕ
  body : Option Body
  requireTls : Bool
  ret : Option Ret
  envid : Option Text

def setOnce {α : Type} (old : Option α) (value : Parse α) : Parse (Option α) := do
  let value ← value
  if old.isSome then .error .invalidArguments else pure (some value)

def parseBody (value : Text) : Parse Body :=
  if isKeyword value "7BIT" then .ok .sevenBit
  else if isKeyword value "8BITMIME" then .ok .eightBitMime
  else .error .invalidArguments

def parseRet (value : Text) : Parse Ret :=
  if isKeyword value "FULL" then .ok .full
  else if isKeyword value "HDRS" then .ok .headers
  else .error .invalidArguments

def addMailParameter (out : MailParams) (keyword : Text) (value : Option Text) : Parse MailParams :=
  if isKeyword keyword "SIZE" then do
    let size ← setOnce out.size (orInvalid (value.bind parseU64))
    pure { out with size }
  else if isKeyword keyword "BODY" then do
    let body ← setOnce out.body (orInvalid value >>= parseBody)
    pure { out with body }
  else if isKeyword keyword "REQUIRETLS" then
    if value.isSome || out.requireTls then .error .invalidArguments
    else pure { out with requireTls := true }
  else if isKeyword keyword "SMTPUTF8" then
    if value.isSome then .error .invalidArguments else pure out
  else if isKeyword keyword "RET" then do
    let ret ← setOnce out.ret (orInvalid value >>= parseRet)
    pure { out with ret }
  else if isKeyword keyword "ENVID" then do
    let envid ← setOnce out.envid (orInvalid value)
    pure { out with envid }
  else .error .unsupportedParameter

def parseMailParameters (params : Text) : Parse MailParams := do
  let parameters ← splitParameters params
  parameters.foldlM (fun out parameter ↦ addMailParameter out parameter.1 parameter.2)
    ⟨none, none, false, none, none⟩

def parseNotify (value : Text) : Parse Notify :=
  let tokens := value.splitOn ','
  let has (keyword : String) : Bool := tokens.any (isKeyword · keyword)
  if !tokens.all fun token ↦ isKeyword token "NEVER" || isKeyword token "SUCCESS" ||
      isKeyword token "FAILURE" || isKeyword token "DELAY" then .error .invalidArguments
  else if !has "NEVER" then .ok (.on (has "SUCCESS") (has "FAILURE") (has "DELAY"))
  else if has "SUCCESS" || has "FAILURE" || has "DELAY" then .error .invalidArguments
  else .ok .never

def parseRcptParameters (params : Text) : Parse (Option Notify × Option Text) := do
  let parameters ← splitParameters params
  parameters.foldlM
    (fun out parameter ↦
      if isKeyword parameter.1 "NOTIFY" then do
        let notify ← setOnce out.1 (orInvalid parameter.2 >>= parseNotify)
        pure (notify, out.2)
      else if isKeyword parameter.1 "ORCPT" then do
        let orcpt ← setOnce out.2 (orInvalid parameter.2)
        pure (out.1, orcpt)
      else .error .unsupportedParameter)
    (none, none)

def parseVerb (verb args : Text) : Parse Command :=
  if isKeyword verb "HELO" then (parseDomainArg args).map .helo
  else if isKeyword verb "EHLO" then (parseDomainArg args).map .ehlo
  else if isKeyword verb "MAIL" then do
    let (path, params) ← parsePathArg args "FROM:"
    let mail ← parseMailParameters params
    pure (.mailFrom path mail.size mail.body mail.requireTls mail.ret mail.envid)
  else if isKeyword verb "RCPT" then do
    let (path, params) ← parsePathArg args "TO:"
    let (notify, orcpt) ← parseRcptParameters params
    pure (.rcptTo path notify orcpt)
  else if isKeyword verb "DATA" then parseNoArgs args .data
  else if isKeyword verb "BDAT" then parseBdat args
  else if isKeyword verb "RSET" then parseNoArgs args .rset
  else if isKeyword verb "NOOP" then .ok .noop
  else if isKeyword verb "QUIT" then parseNoArgs args .quit
  else if isKeyword verb "VRFY" then .ok .vrfy
  else if isKeyword verb "STARTTLS" then parseNoArgs args .startTls
  else if isKeyword verb "AUTH" then parseAuth args
  else .error .unknownCommand

def parse (line : Text) : Parse Command :=
  if utf8Len line > maxCommandLine then .error .lineTooLong
  else if line.any isControl then .error .invalidCharacters
  else match splitOnce ' ' line with
    | some (verb, args) => parseVerb verb (trim args)
    | none => parseVerb line []

example : parse "mail FROM:<a@b.example> SIZE=10 requiretls".toList =
    .ok (.mailFrom "a@b.example".toList (some 10) none true none none) := by decide

example : parse "BDAT 1 LAST".toList = .ok (.bdat 1 true) ∧
    parse "RCPT TO:<a> X=1".toList = .error .unsupportedParameter := by decide

end Command

end Epistle.Smtp
