import EventPipeline.Computation.Partition
import EventPipeline.Model.Text

/-!
# The validator of endpoints

`_validate_http_url`, the two field validators that call it, and the part of `urlparse` that it
uses. What else `urlparse` checks of an authority differs between versions of Python, so it is a
parameter.
-/

set_option autoImplicit false

namespace EventPipeline.Program

open EventPipeline.Model EventPipeline.Computation

/-! ## `urlparse` -/

/-- Tab, newline and carriage return, which `urlparse` removes first. -/
def isRemoved (c : PyChar) : Bool := c = 0x09 || c = 0x0a || c = 0x0d

/-- A slash, a question mark or a number sign ends the authority. -/
def endsAuthority (c : PyChar) : Bool := c = 0x2f || c = 0x3f || c = 0x23

/-- The authority of a URL with a scheme: the text behind the two slashes. -/
def authority (url : PyStr) : PyStr :=
  let rest := after 0x3a url
  if (py "//").isPrefixOf rest then (rest.drop 2).takeWhile fun c => !endsAuthority c else []

/-- `urlparse(v).netloc` for a URL with a scheme. -/
def netloc (v : PyStr) : PyStr := authority (v.filter fun c => !isRemoved c)

/-! ## The validator -/

/-- SOURCE: app/schemas/subscriber.py:13 -/
def httpPrefixes : List PyStr := [py "http://", py "https://"]

/-- `_validate_http_url`. `urlparse` may raise a `ValueError` for a netloc.
SOURCE: app/schemas/subscriber.py:11-18 -/
def validateHttpUrl (urlparseError : PyStr → Option PyStr) (v : PyStr) : Except PyStr PyStr :=
  if httpPrefixes.any fun p => p.isPrefixOf v then
    match urlparseError (netloc v) with
    | some e => .error e
    | none =>
      if (netloc v).isEmpty then .error (py "endpoint must include a valid host") else .ok v
  else .error (py "endpoint must start with http:// or https://")

/-- SOURCE: app/schemas/subscriber.py:25-28 -/
def endpointOfCreate (urlparseError : PyStr → Option PyStr) (v : PyStr) : Except PyStr PyStr :=
  validateHttpUrl urlparseError v

/-- SOURCE: app/schemas/subscriber.py:35-40 -/
def endpointOfUpdate (urlparseError : PyStr → Option PyStr) :
    Option PyStr → Except PyStr (Option PyStr)
  | some v => (validateHttpUrl urlparseError v).map some
  | none => .ok none

example : validateHttpUrl (fun _ => none) (py "http://a:80/x") = .ok (py "http://a:80/x") := by
  decide

example : validateHttpUrl (fun _ => none) (py "http://\t/x") =
    .error (py "endpoint must include a valid host") := by decide

end EventPipeline.Program
