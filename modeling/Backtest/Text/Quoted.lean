/-
A text in double quotes for a message. Quotes, backslashes and the common control characters are
escaped; other characters that do not show are spelled as hexadecimal numbers.
-/
import Backtest.Text.PrintTable

namespace Backtest.Text

def quotedChar (c : Char) : List Char :=
  if c = '\x00' then ['\\', '0']
  else if c = '\t' then ['\\', 't']
  else if c = '\r' then ['\\', 'r']
  else if c = '\n' then ['\\', 'n']
  else if c = '"' then ['\\', '"']
  else if c = '\\' then ['\\', '\\']
  else if spelledRanges.any fun r => r.1 ≤ c.toNat && c.toNat ≤ r.2 then
    '\\' :: 'u' :: '\x7b' :: Nat.toDigits 16 c.toNat ++ ['\x7d']
  else [c]

def quoted (s : String) : String :=
  String.ofList ('"' :: s.toList.flatMap quotedChar ++ ['"'])

end Backtest.Text
