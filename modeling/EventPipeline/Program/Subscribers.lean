import EventPipeline.Program.Endpoints
import EventPipeline.Program.PatchRequests
import EventPipeline.Program.Signing

/-!
# Creating subscribers

`create_subscriber` as one function: the validation of the body, the secret, the INSERT and the
response, which is the only one that shows the secret. The random bytes and the generated
identifier are parameters.
-/

set_option autoImplicit false

namespace EventPipeline.Program

open EventPipeline.Model EventPipeline.Computation

/-- `secrets.token_hex(n)`, with the `n` bytes that the random source of the system gives. -/
def tokenHex (random : Bytes) : PyStr := (hexdigest random).map fun b => chr b.toNat

/-- SOURCE: app/schemas/subscriber.py:21-22 -/
structure SubscriberCreate where
  name : PyStr
  endpoint : PyStr

/-- The checks of the two fields. SOURCE: app/schemas/subscriber.py:21-28 -/
def SubscriberCreate.valid (urlparseError : PyStr → Option PyStr) (body : SubscriberCreate) : Bool :=
  1 ≤ body.name.length && body.name.length ≤ 255 &&
    (endpointOfCreate urlparseError body.endpoint).isOk

/-- SOURCE: app/schemas/subscriber.py:53-55 -/
structure SubscriberCreatedResponse extends SubscriberResponse where
  secret : PyStr
  deriving DecidableEq

inductive CreateReply where
  /-- 201 -/
  | created (response : SubscriberCreatedResponse)
  /-- 422 -/
  | invalid
  /-- 500: the INSERT raises -/
  | failed
  deriving DecidableEq

/-- The new row; `is_active` and the two times have their defaults.
SOURCE: app/api/subscribers.py:58, app/db/models.py:31-38 -/
def newSubscriber (body : SubscriberCreate) (id : Uuid) (secret : PyStr) (now : Time) :
    SubscriberRow where
  id := id
  endpoint := body.endpoint
  secret := secret
  isActive := true
  updatedAt := now
  deletedAt := none
  name := body.name
  createdAt := now

/-- The columns take the three texts. SOURCE: app/db/models.py:32-34 -/
def columnsAccept (row : SubscriberRow) : Bool :=
  Json.varcharAccepts 255 row.name && Json.storable row.endpoint &&
    Json.varcharAccepts 64 row.secret

/-- The primary key and the columns. SOURCE: app/db/models.py:31-38 -/
def insertSubscriber (row : SubscriberRow) (rows : List SubscriberRow) :
    Option (List SubscriberRow) :=
  if row.id ∉ rows.map (fun r => r.id) ∧ columnsAccept row = true then some (rows ++ [row])
  else none

/-- SOURCE: app/api/subscribers.py:53-62 -/
def createSubscriber (urlparseError : PyStr → Option PyStr) (random : Bytes) (id : Uuid)
    (now : Time) (body : SubscriberCreate) (rows : List SubscriberRow) :
    CreateReply × List SubscriberRow :=
  if body.valid urlparseError then
    let row := newSubscriber body id (tokenHex random) now
    match insertSubscriber row rows with
    | some rows' => (.created ⟨row.response, row.secret⟩, rows')
    | none => (.failed, rows)
  else (.invalid, rows)

example : (createSubscriber (fun _ => none) [0x00, 0xaf] ⟨1⟩ 0 ⟨py "n", py "http://a"⟩ []).1 =
    .created ⟨⟨⟨1⟩, py "n", py "http://a", true, 0⟩, py "00af"⟩ := by decide

end EventPipeline.Program
