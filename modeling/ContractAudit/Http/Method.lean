/-!
# Methods of requests

A method counts whatever its letter case. The upper case of a few letters beyond ASCII is ASCII text
too, so those letters also spell methods.
-/

namespace ContractAudit.Http

/-- The upper case of a character where that is ASCII text. Other characters stay: no method has
them. -/
def upperAscii : Char → List Char
  | 'ß' => ['S', 'S']
  | 'ı' => ['I']
  | 'ſ' => ['S']
  | 'ﬀ' => ['F', 'F']
  | 'ﬁ' => ['F', 'I']
  | 'ﬂ' => ['F', 'L']
  | 'ﬃ' => ['F', 'F', 'I']
  | 'ﬄ' => ['F', 'F', 'L']
  | 'ﬅ' | 'ﬆ' => ['S', 'T']
  | c => [c.toUpper]

/-- The methods that an endpoint may take, and one for all others. -/
inductive Method where
  | get
  | head
  | options
  | post
  | other
deriving DecidableEq, Repr

/-- The method of a name in any letter case. -/
def Method.ofName (name : String) : Method :=
  let upper := name.toList.flatMap upperAscii
  if upper = "GET".toList then .get
  else if upper = "HEAD".toList then .head
  else if upper = "OPTIONS".toList then .options
  else if upper = "POST".toList then .post
  else .other

end ContractAudit.Http
