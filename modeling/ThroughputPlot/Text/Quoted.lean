import ThroughputPlot.Text.Printable

/-!
# Quoted text

A text is quoted with double quotes.  Quotes, backslashes and the common control
characters have short escapes, other characters that are not printable are escaped by
their code point, and all else stands for itself.
-/

namespace ThroughputPlot.Text

def quoteChar (c : Char) : List Char :=
  if c = '\x00' then ['\x5c', '0']
  else if c = '\t' then ['\x5c', 't']
  else if c = '\r' then ['\x5c', 'r']
  else if c = '\n' then ['\x5c', 'n']
  else if c = '\x22' then ['\x5c', '\x22']
  else if c = '\x5c' then ['\x5c', '\x5c']
  else if isPrintable c then [c]
  else ['\x5c', 'u', '{'] ++ Nat.toDigits 16 c.toNat ++ ['}']

def quote (text : String) : String :=
  String.ofList ('\x22' :: (text.toList.flatMap quoteChar ++ ['\x22']))

end ThroughputPlot.Text
