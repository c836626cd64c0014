import ScriptTree.Program

/-! What the arguments of a command line ask for. Options may stand before or
after the file, each at most once; after `--` nothing is an option any more. -/
namespace ScriptTree

inductive Action where
  | parse (quiet : Bool)
  | view
deriving DecidableEq, Repr

inductive Invocation where
  | version
  | onFile (action : Action) (file : String) (limits : Limits)
deriving DecidableEq, Repr

/-- A depth is a row of digits, with a plus sign if one likes, that fits into
64 bits. -/
def readDepth? (text : List Char) : Option Nat :=
  let digits := match text with
    | '+' :: rest => rest
    | _ => text
  let depth := digits.foldl (fun n c => 10 * n + (c.toNat - '0'.toNat)) 0
  if !digits.isEmpty && digits.all Char.isDigit && depth < UInt64.size then some depth else none

structure Options where
  file : Option String := none
  depth : Option Nat := none
  quiet : Bool := false
deriving DecidableEq, Repr

namespace Options

def withFile? (options : Options) (file : String) : Option Options :=
  if options.file.isSome || file.isEmpty then none else some { options with file := some file }

def withDepth? (options : Options) (text : List Char) : Option Options :=
  if options.depth.isSome then none
  else (readDepth? text).map fun depth => { options with depth := some depth }

def withQuiet? (options : Options) : Option Options :=
  if options.quiet then none else some { options with quiet := true }

def isOption : List Char → Bool
  | '-' :: _ :: _ => true
  | _ => false

/-- The value written into the same argument, behind an equals sign. -/
def attachedDepth? (arg : List Char) : Option (List Char) :=
  "--max-depth=".toList.isPrefixOf? arg

/-- Reads the arguments after the name of an action. -/
def read? (mayBeQuiet : Bool) (options : Options) : List String → Option Options
  | [] => some options
  | "--" :: files => files.foldlM withFile? options
  | ["--max-depth"] => none
  | "--max-depth" :: depth :: args =>
    if depth.toList.head? = some '-' then none
    else (options.withDepth? depth.toList).bind fun after => after.read? mayBeQuiet args
  | arg :: args =>
    if mayBeQuiet && (arg = "-q" || arg = "--quiet") then
      options.withQuiet?.bind fun after => after.read? mayBeQuiet args
    else
      match attachedDepth? arg.toList with
      | some depth => (options.withDepth? depth).bind fun after => after.read? mayBeQuiet args
      | none =>
        if isOption arg.toList then none
        else (options.withFile? arg).bind fun after => after.read? mayBeQuiet args

def limits (options : Options) : Limits :=
  match options.depth with
  | some depth => .ofDepth depth
  | none => {}

end Options

/-- The version may be asked for by a long name or by a letter, which ends the
reading of its argument. -/
def asksForVersion (arg : String) : Bool :=
  arg = "--version" || "-V".toList.isPrefixOf arg.toList

def Invocation.ofArgs? : List String → Option Invocation
  | [] => none
  | name :: args =>
    if asksForVersion name then some .version
    else if name = "parse" then do
      let options ← Options.read? true {} args
      let file ← options.file
      return .onFile (.parse options.quiet) file options.limits
    else if name = "view" then do
      let options ← Options.read? false {} args
      let file ← options.file
      return .onFile .view file options.limits
    else none

end ScriptTree
