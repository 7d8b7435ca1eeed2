/-! Why something failed: a message, and below it the causes that led to it. The summary is one line
of messages; the stack text sets each cause on lines of its own. -/

namespace PageTest

structure Cause where
  message : String
  below : List String
  deriving DecidableEq, Repr

namespace Cause

def ofMessage (s : String) : Cause := ⟨s, []⟩

/-- All messages, the outermost first. -/
def chain (c : Cause) : List String := c.message :: c.below

def ofChain : List String → Cause
  | [] => ⟨"", []⟩
  | m :: rest => ⟨m, rest⟩

def summary (c : Cause) : String := ": ".intercalate c.chain

/-- The lines of a text; there is always one more than there are line feeds. -/
def lines : List Char → List (List Char)
  | [] => [[]]
  | c :: rest =>
    if c = '\n' then [] :: lines rest
    else match lines rest with
      | [] => [[c]]
      | l :: ls => (c :: l) :: ls

/-- The text with one thing in front of its first line and another in front of each further line. -/
def indent (first further : String) (s : String) : String :=
  match lines s.toList with
  | [] => first
  | l :: ls => "\n".intercalate ((first ++ String.ofList l) :: ls.map fun l => further ++ String.ofList l)

/-- The place of a cause in the list, five columns wide. -/
def index (i : Nat) : String :=
  let s := toString i
  String.ofList (List.replicate (5 - s.length) ' ') ++ s ++ ": "

def numbered : Nat → List String → List String
  | _, [] => []
  | i, m :: rest => indent (index i) "       " m :: numbered (i + 1) rest

def belowText : List String → String
  | [] => ""
  | [m] => "\n\nCaused by:\n" ++ indent "    " "    " m
  | ms => "\n\nCaused by:\n" ++ "\n".intercalate (numbered 0 ms)

def stack (c : Cause) : String := c.message ++ belowText c.below

end Cause

/-- What a panic leaves behind: a text, or a payload that has none. -/
inductive Panic where
  | said (text : String)
  | silent
  deriving DecidableEq, Repr

def Panic.text : Panic → String
  | .said s => s
  | .silent => "test panicked"

end PageTest
