import Courier.Http.Error
import Courier.Text.Percent
/-!
The URL of a request, from a base, a path template and parameters.

A placeholder `{name}` in the template is replaced by the escaped value of the parameter, and query
pairs are escaped and appended. Nothing that a value holds can act as a delimiter.
-/

namespace Courier.Target

def escape (text : String) : String := Percent.encode Percent.isUnreserved text

/-- Replaces every occurrence of a pattern from the left, where `skip` more characters belong to the
last one; `done` holds the result so far, last first. -/
def replaceFrom (pattern new : List Char) (done : List Char) (skip : Nat) : List Char → List Char
  | [] => done.reverse
  | c :: rest =>
    match skip with
    | skip + 1 => replaceFrom pattern new done skip rest
    | 0 =>
      if pattern.isPrefixOf (c :: rest) then
        replaceFrom pattern new (new.reverse ++ done) (pattern.length - 1) rest
      else replaceFrom pattern new (c :: done) 0 rest

def replaceAll (pattern new text : List Char) : List Char :=
  replaceFrom pattern new [] 0 text

def placeholder (name : String) : List Char := '\x7b' :: name.toList ++ ['\x7d']

/-- Fills in the parameters one after the other. -/
def fill (template : List Char) (params : List (String × String)) : List Char :=
  params.foldl (fun path p => replaceAll (placeholder p.1) (escape p.2).toList path) template

/-- The first placeholder that is left before any `?`. -/
def unfilled? (path : List Char) : Option (List Char) :=
  let before := path.takeWhile (· != '?')
  let rest := before.dropWhile (· != '\x7b')
  if rest.contains '\x7d' then some (rest.takeWhile (· != '\x7d') ++ ['\x7d']) else none

/-- The base and the path with one slash between them; an empty path adds nothing. -/
def join (base : String) (path : List Char) : String :=
  match path with
  | [] => base
  | '/' :: _ => base ++ String.ofList path
  | _ => base ++ "/" ++ String.ofList path

def pair (p : String × String) : String := escape p.1 ++ "=" ++ escape p.2

/-- Appends query pairs, the first after `?` unless the URL has one. -/
def addQuery (url : String) : List (String × String) → String
  | [] => url
  | p :: rest =>
    let mark := if url.toList.contains '?' then "&" else "?"
    rest.foldl (fun url p => url ++ "&" ++ pair p) (url ++ mark ++ pair p)

def build (base path : String) (params query : List (String × String)) :
    Except RequestFault String :=
  let path := fill path.toList params
  match unfilled? path with
  | some p => .error (.missingParameter (String.ofList p) (String.ofList path))
  | none => .ok (addQuery (join base path) query)

end Courier.Target
