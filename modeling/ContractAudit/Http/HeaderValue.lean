import ContractAudit.Text.Ends
import ContractAudit.Text.Hexadecimal
import ContractAudit.Text.Utf8

/-!
# Header values

A header value is a text and, behind semicolons, parameters. The value of a parameter is a token or
stands in quotes, within which a backslash escapes the character after it; in both forms the percent
code of a quote stands for a quote. A parameter whose name ends in `*` writes its value in percent
codes of a named character set instead, and keeps quotes. A name with a counter behind a `*`
continues the parameter of the same name. What is no parameter is skipped; the quote of a value that
is not closed takes all that follows it.
-/

namespace ContractAudit.Http

/-! ## Character sets -/

/-- A character set that a message may name. -/
inductive Charset where
  | ascii
  | utf8
  | latin1
deriving DecidableEq, Repr

namespace Charset

/-- The character set of a name in lower case. -/
def ofName? (name : List Char) : Option Charset :=
  if name = "ascii".toList || name = "us-ascii".toList then some .ascii
  else if name = "utf-8".toList then some .utf8
  else if name = "iso-8859-1".toList then some .latin1
  else none

/-- The text of octets; what has no meaning in the set becomes U+FFFD. -/
def decode : Charset → List UInt8 → List Char
  | .ascii, s => s.map fun b => if b < 0x80 then Char.ofNat b.toNat else '\uFFFD'
  | .utf8, s => Text.Utf8.decodeLenient s
  | .latin1, s => s.map fun b => Char.ofNat b.toNat

end Charset

/-! ## Percent codes -/

/-- The octets of a text in ASCII whose percent codes stand for octets, after those in `done`,
reversed. -/
def percentOctetsFrom (done : List UInt8) : List Char → List UInt8
  | '%' :: a :: b :: rest =>
    match Text.hexDigit? a.toNat, Text.hexDigit? b.toNat with
    | some high, some low => percentOctetsFrom ((high * 16 + low).toUInt8 :: done) rest
    | _, _ => percentOctetsFrom ('%'.toNat.toUInt8 :: done) (a :: b :: rest)
  | c :: rest => percentOctetsFrom (c.toNat.toUInt8 :: done) rest
  | [] => done.reverse

/-- The text whose percent codes stand for octets of the character set. Characters beyond ASCII
stay, and codes do not join across them. -/
def percentDecodeIn (charset : Charset) (s : List Char) : List Char :=
  let isAscii (c : Char) : Bool := c.toNat < 0x80
  (s.splitBy fun a b => isAscii a == isAscii b).flatMap fun run =>
    if run.all isAscii then charset.decode (percentOctetsFrom [] run) else run

/-! ## Tokens and quotes -/

/-- Whether the character is white space within a header line: a space or a tab, and no other. -/
def isFieldSpace (c : Char) : Bool :=
  c == ' ' || c == '\t'

/-- Whether the character may stand in a token. -/
def isTokenChar (c : Char) : Bool :=
  c.isAlphanum || "!#$%&'*+-.^_`|~".toList.contains c

/-- The text up to the first quote that no backslash escapes, after that in `done`, reversed, and
what follows the quote. -/
def quotedFrom (done : List Char) : List Char → Option (List Char × List Char)
  | '\\' :: c :: rest => quotedFrom (c :: '\\' :: done) rest
  | '"' :: rest => some (done.reverse, rest)
  | c :: rest => quotedFrom (c :: done) rest
  | [] => none

theorem length_lt_of_quotedFrom {done s text rest : List Char}
    (h : quotedFrom done s = some (text, rest)) : rest.length < s.length := by
  fun_induction quotedFrom done s with
  | case1 done c s ih => exact Nat.lt_succ_of_lt (Nat.lt_succ_of_lt (ih h))
  | case2 done s =>
    obtain ⟨-, rfl⟩ := Prod.mk.inj (Option.some.inj h)
    exact Nat.lt_succ_self _
  | case3 done c s _ _ ih => exact Nat.lt_succ_of_lt (ih h)
  | case4 => simp at h

/-- The text without the backslashes that escape, after that in `done`, reversed. -/
def unescapeFrom (done : List Char) : List Char → List Char
  | '\\' :: c :: rest => unescapeFrom (c :: done) rest
  | c :: rest => unescapeFrom (c :: done) rest
  | [] => done.reverse

/-- The text with the percent codes of quotes as quotes, after that in `done`, reversed. -/
def percentQuotesFrom (done : List Char) : List Char → List Char
  | '%' :: '2' :: '2' :: rest => percentQuotesFrom ('"' :: done) rest
  | c :: rest => percentQuotesFrom (c :: done) rest
  | [] => done.reverse

/-- The value that is written, in quotes or as a token. In both a quote may be a percent code. -/
def meaning (written : List Char) : List Char :=
  percentQuotesFrom [] <|
    if written.head? = some '"' ∧ written.getLast? = some '"' then
      unescapeFrom [] (written.drop 1).dropLast
    else written

/-! ## Parameters as they are written -/

/-- A parameter as it is written: its name in lower case, and its value with the quotes. -/
structure WrittenParameter where
  name : List Char
  value : List Char
deriving DecidableEq, Repr

/-- The parameter that the text starts with, if it does, and a rest in which the next semicolon may
be looked for: none within quotes is in it, nor is one behind a quote that is not closed. -/
def parameterAt (s : List Char) : Option WrittenParameter × List Char :=
  let name := s.takeWhile isTokenChar
  match s.drop name.length with
  | '=' :: behind =>
    let token := behind.takeWhile isTokenChar
    if name.isEmpty then (none, s)
    else if !token.isEmpty then (some ⟨name.map Char.toLower, token⟩, behind)
    else
      match behind with
      | '"' :: quoted =>
        match quotedFrom [] quoted with
        | some (text, rest) => (some ⟨name.map Char.toLower, '"' :: text ++ ['"']⟩, rest)
        | none => (none, [])
      | _ => (none, behind)
  | _ => (none, s)

theorem length_parameterAt_le (s : List Char) : (parameterAt s).2.length ≤ s.length := by
  have hdrop (n : Nat) : (s.drop n).length ≤ s.length := by
    rw [List.length_drop]
    exact Nat.sub_le _ _
  unfold parameterAt
  dsimp only
  split
  · next behind h =>
    have hbehind : behind.length ≤ s.length :=
      Nat.le_of_succ_le (h ▸ hdrop _ : ('=' :: behind).length ≤ s.length)
    split
    · exact Nat.le_refl _
    · split
      · exact hbehind
      · split
        · next quoted =>
          split
          · next text rest hq =>
            have hrest := Nat.lt_succ_of_lt (length_lt_of_quotedFrom hq)
            exact Nat.le_trans (Nat.le_of_lt hrest) hbehind
          · exact Nat.zero_le _
        · exact hbehind
  · exact Nat.le_refl _

/-- What stands behind the first semicolon and white space. -/
def afterSemicolon? (s : List Char) : Option (List Char) :=
  match s.dropWhile (· != ';') with
  | _ :: rest => some (rest.dropWhile isFieldSpace)
  | [] => none

theorem length_lt_of_afterSemicolon {s rest : List Char} (h : afterSemicolon? s = some rest) :
    rest.length < s.length := by
  unfold afterSemicolon? at h
  split at h
  · next c tail htail =>
    obtain rfl := Option.some.inj h
    have hs := (List.dropWhile_suffix (p := (· != ';')) (l := s)).length_le
    rw [htail] at hs
    exact Nat.lt_of_le_of_lt (List.dropWhile_suffix _).length_le hs
  · simp at h

/-- The parameters of a text, each but the first behind a semicolon. -/
def writtenParameters (s : List Char) : List WrittenParameter :=
  let here := (parameterAt s).1.toList
  match _ : afterSemicolon? (parameterAt s).2 with
  | some rest => here ++ writtenParameters rest
  | none => here
termination_by s.length
decreasing_by
  exact Nat.lt_of_lt_of_le (length_lt_of_afterSemicolon ‹_›) (length_parameterAt_le s)

/-! ## Parameters as they are meant -/

/-- A value of a parameter, or another piece of it. -/
structure Piece where
  name : List Char
  value : List Char
  continues : Bool
deriving DecidableEq, Repr

/-- The parameters read so far, and the names of character sets that hold for values that name
none. -/
structure Parameters where
  /-- The pieces, the last first. -/
  pieces : List Piece
  charset : List Char
  /-- The last character set that is known. -/
  known : List Char

/-- The name of the character set of a value, and its percent codes, where the value has the form of
both with a language in between. -/
def splitCharset? (value : List Char) : Option (List Char × List Char) :=
  let isMark (c : Char) : Bool := isTokenChar c && c != '\''
  let charset := value.takeWhile isMark
  match value.drop charset.length with
  | '\'' :: behind =>
    match behind.dropWhile isMark with
    | '\'' :: codes =>
      let codes := codes.takeWhile isTokenChar
      if codes.isEmpty then none else some (charset, codes)
    | _ => none
  | _ => none

/-- The name without a counter behind a `*` at its end, if it has one. -/
def continuedName? (name : List Char) : Option (List Char) :=
  let counter := name.reverse.takeWhile Char.isDigit
  match name.reverse.drop counter.length with
  | '*' :: before => if counter.isEmpty then none else some before.reverse
  | _ => none

namespace Parameters

/-- The value of a name: its last value that continues no other, with all that continues it. -/
def get? (ps : Parameters) (name : List Char) : Option (List Char) :=
  let own := ps.pieces.filter (·.name = name)
  let later := own.takeWhile (·.continues)
  let pieces := later ++ (own.drop later.length).take 1
  if own.isEmpty then none else some (pieces.reverse.flatMap (·.value))

/-- The parameters with one more, whose value is what it means. -/
def add (ps : Parameters) (name value : List Char) : Parameters :=
  let piece : Piece := match continuedName? name with
    | some name => ⟨name, value, true⟩
    | none => ⟨name, value, false⟩
  { ps with pieces := piece :: ps.pieces }

/-- The parameters with one more whose value is in percent codes. Quotes have no meaning there: they
belong to the value. -/
def addExtended (ps : Parameters) (name value : List Char) : Parameters :=
  let (charset, value) := match splitCharset? value with
    | some (charset, codes) => (charset.map Char.toLower, codes)
    | none => (ps.charset, value)
  let charset := if charset.isEmpty then ps.known else charset
  match Charset.ofName? charset with
  | some known =>
    { ps with charset := charset, known := charset }.add name (percentDecodeIn known value)
  | none => { ps with charset := charset }.add name value

/-- The parameters with one more as it is written. -/
def addWritten (ps : Parameters) (p : WrittenParameter) : Parameters :=
  if p.name.getLast? = some '*' then ps.addExtended p.name.dropLast p.value
  else ps.add p.name (meaning p.value)

end Parameters

/-! ## Header values -/

/-- A header value with its parameters. -/
structure HeaderValue where
  value : List Char
  parameters : Parameters

namespace HeaderValue

/-- The header value of a text. A value that is empty has no parameters. -/
def ofText (s : List Char) : HeaderValue :=
  let value := s.takeWhile (· != ';')
  let behind := Text.dropEnds isFieldSpace (s.drop (value.length + 1))
  let value := Text.dropEnds isFieldSpace value
  let written := if value.isEmpty then [] else writtenParameters behind
  ⟨value, written.foldl Parameters.addWritten ⟨[], [], []⟩⟩

/-- The value of a parameter by its name in lower case. -/
def parameter? (h : HeaderValue) (name : String) : Option (List Char) :=
  h.parameters.get? name.toList

end HeaderValue

end ContractAudit.Http
