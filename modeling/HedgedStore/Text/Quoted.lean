import HedgedStore.Text.Hexadecimal
import HedgedStore.Text.Unprintable

/-! Quoted text: a string between double quotes, on one line, with every character that could
end it, break the line or hide from the reader written as an escape. -/
namespace HedgedStore.Text

/-- How one character stands inside quotes. -/
def escape (c : Char) : List Char :=
  if c = '\x00' then ['\\', '0']
  else if c = '\t' then ['\\', 't']
  else if c = '\n' then ['\\', 'n']
  else if c = '\r' then ['\\', 'r']
  else if c = '"' then ['\\', '"']
  else if c = '\\' then ['\\', '\\']
  else if isUnprintable c then ['\\', 'u', '\x7b'] ++ hexDigits c.toNat ++ ['\x7d']
  else [c]

/-- How one character stands inside quotes when a single quote is written as an escape too. -/
def escapeApostrophe (c : Char) : List Char :=
  if c = '\'' then ['\\', '\''] else escape c

def quote (s : String) : String :=
  String.ofList ('"' :: s.toList.flatMap escape ++ ['"'])

def quotePath (s : String) : String :=
  String.ofList ('"' :: s.toList.flatMap escapeApostrophe ++ ['"'])

end HedgedStore.Text
