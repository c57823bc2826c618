import Spaceless.Foundation.Exception

/-!
# File paths of requests

`FilePath` normalises the text of a request once and then cuts it with a
tokenizer, or at its last separator.  The Poco functions it calls are
modelled as documented: `trimInPlace` removes white space at both ends,
`replaceInPlace` replaces from left to right in one pass, and a
`StringTokenizer` without options keeps empty tokens.
-/

namespace Spaceless
namespace ResourceServer

open Foundation

/-- `Poco::Ascii::isSpace`. -/
def isSpace (character : Char) : Bool :=
  character.toNat == 32 || (9 ≤ character.toNat && character.toNat ≤ 13)

/-- `Poco::trimInPlace`. -/
def trimInPlace (text : Text) : Text :=
  ((text.dropWhile isSpace).reverse.dropWhile isSpace).reverse

/-- `Poco::replaceInPlace`, after a number of characters that belong to an
occurrence already replaced. -/
def replaceAfter (pattern replacement : Text) : Nat → Text → Text
  | _, [] => []
  | skipped + 1, _ :: rest => replaceAfter pattern replacement skipped rest
  | 0, character :: rest =>
      if pattern.isPrefixOf (character :: rest) then
        replacement ++
          replaceAfter pattern replacement (pattern.length - 1) rest
      else character :: replaceAfter pattern replacement 0 rest

/-- `Poco::replaceInPlace`. -/
def replaceInPlace (text pattern replacement : Text) : Text :=
  replaceAfter pattern replacement 0 text

/-- The loop of `Poco::StringTokenizer` without options: the token read so
far, and whether a separator has been met. -/
def tokenizeAfter (separator : Char) : Text → Bool → Text → List Text
  | token, lastToken, [] =>
      if token ≠ [] then [token] else if lastToken then [[]] else []
  | token, lastToken, character :: rest =>
      if character = separator then
        token :: tokenizeAfter separator [] true rest
      else tokenizeAfter separator (token ++ [character]) lastToken rest

/-- The tokens of a text. -/
def tokenize (separator : Char) (text : Text) : List Text :=
  tokenizeAfter separator [] false text

/-- `std::string::rfind` of one character. -/
def rfind (separator : Char) : Text → Option Nat
  | [] => none
  | character :: rest =>
      match rfind separator rest with
      | some position => some (position + 1)
      | none => if character = separator then some 0 else none

structure FilePath where
  path : Text
  deriving DecidableEq

namespace FilePath

def separator : Char := '/'

def root : Text := []

/-- The constructor of `FilePath`.  On the empty text `front` and `back` read
outside the string; the model then reads no character, so neither test
succeeds. -/
def ofText (path : Text) : FilePath :=
  let trimmed := trimInPlace path
  let slashed := replaceInPlace trimmed ['\\'] [separator]
  let single := replaceInPlace slashed ['/', '/'] [separator]
  let relative :=
    if single.head? = some separator then single.drop 1 else single
  let closed :=
    if relative.getLast? = some separator then relative.dropLast
    else relative
  { path := closed }

def split (path : FilePath) : List Text :=
  tokenize separator path.path

def directoryPath (path : FilePath) : Text :=
  match rfind separator path.path with
  | some position => path.path.take position
  | none => root

def filename (path : FilePath) : Text :=
  match rfind separator path.path with
  | some position => path.path.drop (position + 1)
  | none => path.path

/-- Separators of both kinds and a repeated separator are normalised. -/
example :
    (ofText [' ', '\\', 'a', '/', '/', 'b', '/']).split = [['a'], ['b']] := by
  decide

end FilePath

end ResourceServer
end Spaceless
