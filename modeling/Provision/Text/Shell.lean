namespace Provision.Text.Shell

def isSafe (c : Char) : Bool := c.isAlphanum || "_@%+=:,./-".toList.contains c

def escapeQuote (c : Char) : List Char :=
  if c = '\'' then ['\'', '"', '\'', '"', '\''] else [c]

def quote (s : String) : String :=
  let cs := s.toList
  if cs.isEmpty then "''"
  else if cs.all isSafe then s
  else String.ofList ('\'' :: cs.flatMap escapeQuote ++ ['\''])

def join (words : List String) : String := " ".intercalate (words.map quote)

end Provision.Text.Shell
