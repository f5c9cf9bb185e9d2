/-!
# Ends of a text

Taking characters of one kind off the ends of a text. What is left neither starts nor ends with one
of them; those inside stay.
-/

namespace ContractAudit.Text

/-- The text without the characters at its end that pass the test. -/
def dropEnd (test : Char → Bool) (s : List Char) : List Char :=
  (s.reverse.dropWhile test).reverse

/-- The text without the characters at its two ends that pass the test. -/
def dropEnds (test : Char → Bool) (s : List Char) : List Char :=
  dropEnd test (s.dropWhile test)

end ContractAudit.Text
