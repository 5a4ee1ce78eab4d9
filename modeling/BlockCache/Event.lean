import BlockCache.Fault

namespace BlockCache

/-- The name under which a device announces its transfers. A numbered device is one of many that are made
alike. -/
inductive Label
  | named (id : String)
  | numbered
deriving DecidableEq

inductive Event
  | hit (key : Key) (slot : Nat)
  | miss (key : Key) (slot : Nat)
  | evicting (old : Key) (slot : Nat) (key : Key)
  | stealing (slot bucket : Nat) (key : Key)
  | waiting
  | stopped (reason : Stop)
  | deviceRead (label : Label) (key : Key) (length : Nat)
  | deviceWrite (label : Label) (key : Key) (length : Nat)
deriving DecidableEq

def Fault.events : Fault → List Event
  | .stop reason => [.stopped reason]
  | _ => []

namespace Event

/-- Writes `#` for the number in every `(mem.N`, so that a text does not depend on how many devices there
were before. In a number that is being left out, `within` is true. -/
def maskNumbers (within : Bool) : List Char → List Char
  | '(' :: 'm' :: 'e' :: 'm' :: '.' :: rest@(d :: _) =>
      if d.isDigit then "(mem.#".toList ++ maskNumbers true rest
      else "(mem.".toList ++ maskNumbers false rest
  | c :: rest =>
      if within && c.isDigit then maskNumbers true rest else c :: maskNumbers false rest
  | [] => []

def transfer (way : String) (label : Label) (key : Key) (length : Nat) : String :=
  let id := match label with
    | .named id => id
    | .numbered => "mem.#"
  "TRACE device." ++ way ++ "(" ++ id ++ ", " ++ key.text ++ ", " ++ toString length ++ ")"

def line : Event → String
  | hit key slot => "TRACE hit " ++ key.text ++ " in slot " ++ toString slot
  | miss key slot => "TRACE miss " ++ key.text ++ ", assigned slot " ++ toString slot
  | evicting old slot key =>
      "DEBUG evicting " ++ old.text ++ " from slot " ++ toString slot ++ " for " ++ key.text
  | stealing slot bucket key =>
      "DEBUG stealing slot " ++ toString slot ++ " from bucket " ++ toString bucket ++ " for " ++ key.text
  | waiting => "DEBUG cache exhausted, waiting for a free slot"
  | stopped reason => "ERROR buffer cache stopped: " ++ reason.message
  | deviceRead label key length => transfer "read" label key length
  | deviceWrite label key length => transfer "write" label key length

def masked (e : Event) : String := String.ofList (maskNumbers false e.line.toList)

end Event
end BlockCache
