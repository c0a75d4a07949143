import DocSite.Literal

namespace DocSite

/-- How a command that failed has ended: with a code other than zero, or because its time was
up. -/
inductive Ending
  | code (n : Int)
  | timedOut (seconds : Nat)
  deriving DecidableEq, Repr

def Ending.phrase : Ending → String
  | .code n => "returned non-zero exit status " ++ toString n ++ "."
  | .timedOut seconds => "timed out after " ++ toString seconds ++ " seconds"

inductive Fault
  | noAttribute (owner member : String)
  /-- A value is of the wrong kind for what is done with it. -/
  | wrongKind (detail : String)
  | badValue (detail : String)
  | noKey (key : String)
  | noIndex
  | unmet
  | badMarkup
  | badJson (detail : String)
  | badPattern (detail : String)
  | noFile (path : String)
  | notDirectory (path : String)
  | notTree (path : String)
  | isDirectory (path : String)
  | alreadyThere (path : String)
  | nameTooLong (path : String)
  /-- Something lies inside of itself too many times. -/
  | tooDeep (detail : String)
  | tooLarge (detail : String)
  | unknownEncoding (name : String)
  | noDecoding (detail : String)
  | undecodable (detail : String)
  /-- A text has no bytes, for the halves of characters from one place to another in it. -/
  | unencodable (first last half : Nat)
  | noModule (detail : String)
  | commandFailed (command : List String) (ending : Ending)
  | unreachable (detail : String)
  /-- The work is left to a more special kind of page. -/
  | leftOpen
  /-- A step was asked for before what it needs was loaded. -/
  | notLoaded (detail : String)
  | givenUp (reason : String)
  /-- A place that must exist is missing, with the reason. -/
  | missing (reason : String)
  | unreadable
  deriving DecidableEq, Repr

def Fault.message : Fault → String
  | .noAttribute owner member => "'" ++ owner ++ "' object has no attribute '" ++ member ++ "'"
  | .wrongKind detail => detail
  | .badValue detail => detail
  | .noKey key => "'" ++ key ++ "'"
  | .noIndex => "list index out of range"
  | .unmet => ""
  | .badMarkup => "not well-formed"
  | .badJson detail => detail
  | .badPattern detail => detail
  | .noFile path => "[Errno 2] No such file or directory: " ++ Literal.quotedText path
  | .notDirectory path => "[Errno 20] Not a directory: " ++ Literal.quotedText path
  | .notTree path => "[Errno 20] Not a directory: PosixPath(" ++ Literal.quotedText path ++ ")"
  | .isDirectory path => "[Errno 21] Is a directory: " ++ Literal.quotedText path
  | .alreadyThere path => "[Errno 17] File exists: " ++ Literal.quotedText path
  | .nameTooLong path => "[Errno 36] File name too long: " ++ Literal.quotedText path
  | .tooDeep detail => detail
  | .tooLarge detail => detail
  | .unknownEncoding name => "unknown encoding: " ++ name
  | .noDecoding detail => detail
  | .undecodable detail => detail
  | .unencodable first last half =>
    "'utf-8' codec can't encode character" ++
      (if first = last then " '\\u" ++ String.ofList (Text.hex 4 half) ++ "' in position "
       else "s in position " ++ toString first ++ "-") ++
      toString last ++ ": surrogates not allowed"
  | .noModule detail => detail
  | .commandFailed command ending =>
    "Command '" ++ (Literal.list (command.map .str)).codeText ++ "' " ++ ending.phrase
  | .unreachable detail => detail
  | .leftOpen => "Subclasses must implement generate_page"
  | .notLoaded detail => detail
  | .givenUp reason => reason
  | .missing reason => reason
  | .unreadable => ""

def Fault.named (path : String) : Fault → Fault
  | .noFile _ => .noFile path
  | .notDirectory _ => .notDirectory path
  | .isDirectory _ => .isDirectory path
  | .nameTooLong _ => .nameTooLong path
  | fault => fault

inductive Halt
  | failed (fault : Fault)
  | exited (code : Int)
  | interrupted
  | endless
  deriving DecidableEq, Repr

end DocSite
