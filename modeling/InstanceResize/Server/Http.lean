import InstanceResize.Document.Write
import InstanceResize.Json.Print

/-!
# Requests and responses

* `HttpRequest`: a method, the target with path and query, and the header fields.
* `Response`: a status, a body, and the header fields that depend on the request.
-/

namespace InstanceResize.Server

/-- A request. -/
structure HttpRequest where
  method : String
  /-- The path and the query. -/
  target : String
  /-- Names and values of header fields. -/
  headers : List (String × String)
deriving Repr, DecidableEq

namespace HttpRequest

/-- What follows the scheme of a target that has one. -/
def afterScheme? (target : List Char) : Option (List Char) :=
  match target.dropWhile fun c => c.isAlphanum || "+-.".toList.contains c with
  | ':' :: '/' :: '/' :: rest => some rest
  | _ => none

/-- The target without what follows a `#`. A scheme and the authority behind it do not count. -/
def address (r : HttpRequest) : List Char :=
  let target := r.target.toList.takeWhile (· ≠ '#')
  match afterScheme? target with
  | some rest => rest.dropWhile fun c => c ≠ '/' ∧ c ≠ '?'
  | none => target

/-- The path. -/
def path (r : HttpRequest) : List Char := r.address.takeWhile (· ≠ '?')

/-- The query, which may be empty. -/
def query (r : HttpRequest) : String := String.ofList ((r.address.dropWhile (· ≠ '?')).drop 1)

/-- Whether a text has a certain part. -/
def hasPart (part : List Char) : List Char → Bool
  | [] => part.isEmpty
  | c :: cs => part.isPrefixOf (c :: cs) || hasPart part cs

/-- The value of a header field, whose name is given in lower case. -/
def header? (r : HttpRequest) (name : String) : Option String :=
  (r.headers.find? fun h => String.ofList (h.1.toList.map Char.toLower) == name).map (·.2)

end HttpRequest

/-- A response. All of them may be read from anywhere. -/
structure Response where
  status : Nat
  contentType : Option String
  /-- The methods that a path knows, where that is said. -/
  allow : Option String
  body : String
deriving Repr, DecidableEq

namespace Response

/-- A response without a body. -/
def empty (status : Nat) (allow : Option String) : Response := ⟨status, none, allow, ""⟩

/-- A response that is a plain text. -/
def plain (status : Nat) (body : String) : Response :=
  ⟨status, some "text/plain; charset=utf-8", none, body⟩

/-- A response that is a document. -/
def document (status : Nat) (doc : Document) : Response :=
  ⟨status, some "application/json", none, String.ofList doc.json⟩

/-- A response that is a value. -/
def value {α : Type} (schema : Schema α) (a : α) : Response := document 200 (schema.document a)

/-- The response without its body. -/
def withoutBody (r : Response) : Response := { r with body := "" }

end Response

end InstanceResize.Server
