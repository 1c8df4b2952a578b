import ProximityCert.Failure
import ProximityCert.Wire.Service

/-!
The certificate service, by the answers it is going to give and the requests it has been sent. Past
the last answer it agrees to everything and has nothing to tell.
-/

namespace ProximityCert

structure Service where
  publishAnswers : List (Except Failure PublishResponse) := []
  queryAnswers : List (Except Failure CredentialsResponse) := []
  published : List PublishRequest := []
  queried : List CredentialsRequest := []

namespace Service

def publish (s : Service) (request : PublishRequest) : Except Failure PublishResponse × Service :=
  let s := { s with published := s.published ++ [request] }
  match s.publishAnswers with
  | [] => (.ok {}, s)
  | answer :: rest => (answer, { s with publishAnswers := rest })

def query (s : Service) (request : CredentialsRequest) : Except Failure CredentialsResponse × Service :=
  let s := { s with queried := s.queried ++ [request] }
  match s.queryAnswers with
  | [] => (.ok {}, s)
  | answer :: rest => (answer, { s with queryAnswers := rest })

/-- All credentials, page by page: each page is asked for with the token that the one before it
gave, and one without a token is the last. The bound is on the number of pages. -/
def queryPages (name : String) : (bound : Nat) → (token : Option String) → Service →
    Except Failure (List SharedCredential) × Service
  | 0, _, s => (.ok [], s)
  | bound + 1, token, s =>
    match s.query { name, pageToken := token } with
    | (.error f, s) => (.error f, s)
    | (.ok page, s) =>
      if page.nextPageToken.isEmpty then (.ok page.credentials, s)
      else
        let (later, s) := queryPages name bound (some page.nextPageToken) s
        (later.map (page.credentials ++ ·), s)

/-- Answers that have not been given yet. -/
def pending (s : Service) : Nat := s.publishAnswers.length + s.queryAnswers.length

/-- Every answer holds one page at most, and the first beyond them ends the list. -/
def queryAll (s : Service) (name : String) : Except Failure (List SharedCredential) × Service :=
  queryPages name (s.queryAnswers.length + 1) none s

end Service

/-- The certificate that a credential holds, if it is said to hold one and can be read. -/
def SharedCredential.certificate? (c : SharedCredential) : Option PublicCertificate :=
  if c.dataType = CredentialType.publicCertificate.code then Message.decode c.data else none

end ProximityCert
