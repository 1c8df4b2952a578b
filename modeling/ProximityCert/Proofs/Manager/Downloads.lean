import ProximityCert.Manager.Contacts
import ProximityCert.Proofs.Manager.Deliveries
import ProximityCert.Proofs.Storage.Batches

/-!
One download: the pages it asks for, and what becomes of the certificates on them. All of them are stored
or none is, and observers hear of it in the first case only. After that the next cleanup is planned, which
can end the work but no longer changes what is stored.
-/

namespace ProximityCert

/-- The answers to one download: pages that name a next one, and a last answer that is a failure or a page
that names none. -/
structure PageScript where
  pages : List CredentialsResponse
  last : Except Failure CredentialsResponse
  goesOn : ∀ page ∈ pages, page.nextPageToken.isEmpty = false
  stops : ∀ page, last = .ok page → page.nextPageToken.isEmpty = true

namespace PageScript

def answers (s : PageScript) : List (Except Failure CredentialsResponse) := s.pages.map .ok ++ [s.last]

/-- The first page is asked for without a token, each other one with the token of the page before it. -/
def tokens (s : PageScript) : List (Option String) :=
  none :: s.pages.map fun page => some page.nextPageToken

def requests (s : PageScript) (name : String) : List CredentialsRequest :=
  s.tokens.map fun token => { name, pageToken := token }

/-- What all pages together hold, if none of them is refused. -/
def credentials (s : PageScript) : Except Failure (List SharedCredential) :=
  s.last.map fun page => (s.pages ++ [page]).flatMap CredentialsResponse.credentials

/-- The certificates that can be read, in the order of the pages. -/
def certificates (s : PageScript) : List PublicCertificate :=
  (s.credentials.toOption.getD []).filterMap SharedCredential.certificate?

theorem certificates_of_read (s : PageScript) {cs : List SharedCredential} (read : s.credentials = .ok cs) :
    s.certificates = cs.filterMap SharedCredential.certificate? := by
  rw [certificates, read]
  rfl

end PageScript

namespace Service

/-- The service once it has given the answers of a script. -/
def afterScript (s : Service) (requests : List CredentialsRequest)
    (rest : List (Except Failure CredentialsResponse)) : Service :=
  { s with queried := s.queried ++ requests, queryAnswers := rest }

theorem query_of_answers {s : Service} {answer : Except Failure CredentialsResponse}
    {rest : List (Except Failure CredentialsResponse)} (answers : s.queryAnswers = answer :: rest)
    (request : CredentialsRequest) : s.query request = (answer, s.afterScript [request] rest) := by
  simp only [query, answers, afterScript]

/-- The pages are asked for one by one, and each of them once. -/
theorem queryPages_of_script {name : String} {bound : Nat} {token : Option String} {s : Service}
    {pages : List CredentialsResponse} {last : Except Failure CredentialsResponse}
    {rest : List (Except Failure CredentialsResponse)} (enough : pages.length < bound)
    (goesOn : ∀ page ∈ pages, page.nextPageToken.isEmpty = false)
    (stops : ∀ page, last = .ok page → page.nextPageToken.isEmpty = true)
    (answers : s.queryAnswers = pages.map .ok ++ last :: rest) :
    queryPages name bound token s =
      (last.map fun page => (pages ++ [page]).flatMap CredentialsResponse.credentials,
        s.afterScript ((token :: pages.map fun page => some page.nextPageToken).map
          fun token => { name, pageToken := token }) rest) := by
  induction pages generalizing bound token s with
  | nil =>
      obtain ⟨bound, rfl⟩ := Nat.exists_eq_add_of_lt enough
      rw [queryPages, query_of_answers answers]
      cases last with
      | error f => rfl
      | ok page => simp [stops page rfl, Except.map]
  | cons page pages ih =>
      obtain ⟨bound, rfl⟩ : ∃ n, bound = n + 1 := ⟨bound - 1, by omega⟩
      have answers : s.queryAnswers = .ok page :: (pages.map .ok ++ last :: rest) := answers
      have more : page.nextPageToken.isEmpty = false := goesOn page List.mem_cons_self
      have enough : pages.length < bound := Nat.lt_of_succ_lt_succ enough
      have later : queryPages name bound (some page.nextPageToken)
          (s.afterScript [{ name, pageToken := token }] (pages.map .ok ++ last :: rest)) = _ :=
        ih enough (fun p member => goesOn p (List.mem_cons_of_mem page member)) rfl
      rw [queryPages, query_of_answers answers]
      simp only [more, Bool.false_eq_true, if_false, later]
      cases last <;> simp [Except.map, afterScript]

theorem queryAll_of_script {name : String} {s : Service} {script : PageScript}
    {rest : List (Except Failure CredentialsResponse)} (answers : s.queryAnswers = script.answers ++ rest) :
    s.queryAll name = (script.credentials, s.afterScript (script.requests name) rest) := by
  have split : s.queryAnswers = script.pages.map .ok ++ script.last :: rest := by
    rw [answers, PageScript.answers, List.append_assoc, List.singleton_append]
  have enough : script.pages.length < s.queryAnswers.length + 1 := by
    simp only [split, List.length_append, List.length_map, List.length_cons]
    omega
  exact queryPages_of_script enough script.goesOn script.stops split

end Service

/-- A failing database leaves a store as it was. -/
theorem Store.carryOut_of_fails {s : Store} {d : MemoryDatabase} (memory : s.database = .memory d)
    (fails : d.failOperations = true) (change : Database.Change) (index : Expirations) :
    s.carryOut change index = (.error MemoryDatabase.operationFault, s) := by
  rw [carryOut, Database.Change.perform_eq, memory, Database.update, MemoryDatabase.update, if_pos fails]
  simp only [← memory]

theorem Store.carryOut_of_takes {s : Store} {d : MemoryDatabase} (memory : s.database = .memory d)
    (takes : d.failOperations = false) (change : Database.Change) (index : Expirations) :
    s.carryOut change index = (.ok (), ({ s with
      database := .memory { d with rows := change.effect d.rows } } : Store).setExpirations index) := by
  rw [carryOut, Database.Change.perform_eq, memory, Database.update, MemoryDatabase.update_of_works takes]

/-- Whether a scheduler looks at its cadence when it arms its timer. -/
def Scheduler.Consults (s : Scheduler) (p : Preferences) : Prop :=
  s.running = true ∧ (load s.key p).waitingForResult = false ∧
    (load s.key p).pendingImmediateRequest = false ∧ (load s.key p).consecutiveFailures = 0

/-- An instant that cannot be told does no harm to a scheduler that does not look at it. -/
theorem Scheduler.completes_reschedule {s : Scheduler} {p : Preferences} {now : Moment}
    {next : Except ClockFault (Option Instant)} :
    Completes (s.reschedule p (.expiration next) now) ↔ (s.Consults p → Completes next) := by
  -- Every way of not looking at the cadence comes to a result.
  have unseen {d : Option Duration} (not : ¬ s.Consults p) :
      Completes (.ok d : Except ClockFault (Option Duration)) ↔ (s.Consults p → Completes next) :=
    iff_of_true (completes_ok d) fun consults => (not consults).elim
  by_cases running : s.running = true
  · rw [reschedule, if_pos running, completes_map]
    unfold timeUntilNext TaskState.timeUntilNext
    split
    · next halted => exact unseen fun consults => by simp [running, consults.2.1] at halted
    · next idle =>
        split
        · next asked => exact unseen fun consults => by simp [consults.2.2.1] at asked
        · next calm =>
            split
            · next failed => exact unseen fun consults => failed consults.2.2.2
            · next sound =>
                rw [completes_map]
                have consults : s.Consults p := by simp_all [Consults]
                exact ⟨fun completes _ => completes, fun completes => completes consults⟩
  · rw [reschedule, if_neg running]
    exact iff_of_true (completes_ok s) fun consults => (running consults.1).elim

namespace Manager

variable {m : Manager} {now : Moment}

/-- Planning the next cleanup stays within the range of the clock. -/
def Plannable (m : Manager) : Prop :=
  ∀ s, m.tasks.cleanup = .scheduled s → s.Consults m.store.preferences →
    ∀ e ∈ m.store.expirations.head?, e.2.InTime

/-- Planning the next cleanup touches nothing but the task and its timer. -/
theorem act_reschedule_cleanup (m : Manager) (now : Moment) :
    (m.Plannable → ∃ t, m.act .cleanup .reschedule now = .ok (m.setTask .cleanup t)) ∧
    (¬ m.Plannable → m.act .cleanup .reschedule now = .error ⟨m⟩) := by
  unfold act
  cases task : m.tasks.get .cleanup with
  | recorded t =>
      have plannable : m.Plannable := fun s same => nomatch task.symm.trans same
      exact ⟨fun _ => ⟨_, rfl⟩, fun not => (not plannable).elim⟩
  | scheduled s =>
      have iff : Completes (s.reschedule m.store.preferences (m.cadence .cleanup) now) ↔ m.Plannable := by
        rw [cadence, Scheduler.completes_reschedule, completes_cleanupDue]
        constructor
        · intro due s' same
          cases task.symm.trans same
          exact due
        · exact fun plannable => plannable s task
      simp only [Scheduler.act]
      cases anew : s.reschedule m.store.preferences (m.cadence .cleanup) now with
      | ok t => exact ⟨fun _ => ⟨_, rfl⟩, fun not => (not (iff.1 ⟨t, anew⟩)).elim⟩
      | error fault =>
          refine ⟨fun plannable => ?_, fun _ => rfl⟩
          exact (not_completes_error fault (anew ▸ iff.2 plannable)).elim

/-- The manager once the service has given the answers of a script. -/
def afterScript (m : Manager) (script : PageScript)
    (rest : List (Except Failure CredentialsResponse)) : Manager :=
  { m with
    service := m.service.afterScript (script.requests (m.config.resourceName m.device.id)) rest }

variable {d : MemoryDatabase} {script : PageScript} {rest : List (Except Failure CredentialsResponse)}

/-- The manager once certificates are stored over the rows of its database and in the index, and its
observers have been told. -/
def takenIn (m : Manager) (d : MemoryDatabase) (cs : List PublicCertificate) : Manager :=
  { m with
    store := ({ m.store with
      database := .memory { d with rows := d.rows.upsert cs } } : Store).setExpirations
        (m.store.expirations.merge (cs.map fun c => (c.secretId, c.stop)))
    observers := m.observers.notify .publicDownloaded }

/-- The manager once a download is stored and announced. -/
def downloaded (m : Manager) (d : MemoryDatabase) (script : PageScript)
    (rest : List (Except Failure CredentialsResponse)) : Manager :=
  (m.afterScript script rest).takenIn d script.certificates

theorem download_of_refused {f : Failure} (signedIn : m.account.isNone = false)
    (answers : m.service.queryAnswers = script.answers ++ rest) (refused : script.credentials = .error f) :
    m.download now = .ok (false, m.afterScript script rest) := by
  simp only [download, signedIn, Bool.false_eq_true, if_false, Service.queryAll_of_script answers, refused]
  rfl

section Read

variable {cs : List SharedCredential} {s : Store}

theorem download_of_unstored {f : Failure} (signedIn : m.account.isNone = false)
    (answers : m.service.queryAnswers = script.answers ++ rest) (read : script.credentials = .ok cs)
    (adds : m.store.addPublic (cs.filterMap SharedCredential.certificate?) = .ok (.error f, s)) :
    m.download now = .ok (false, { m.afterScript script rest with store := s }) := by
  simp only [download, signedIn, Bool.false_eq_true, if_false, Service.queryAll_of_script answers,
    read, adds]
  rfl

theorem download_of_stored (signedIn : m.account.isNone = false)
    (answers : m.service.queryAnswers = script.answers ++ rest) (read : script.credentials = .ok cs)
    (adds : m.store.addPublic (cs.filterMap SharedCredential.certificate?) = .ok (.ok (), s)) :
    m.download now = (({ m.afterScript script rest with store := s }.notify .publicDownloaded).act
      .cleanup .reschedule now).map fun m => (true, m) := by
  simp only [download, signedIn, Bool.false_eq_true, if_false, Service.queryAll_of_script answers,
    read, adds]
  rfl

end Read

/-- A download stores the certificates of all pages or changes nothing but what the service was asked. Once
they are stored, it fails to return only if the end that comes first is too late to plan a cleanup for. The
database may fail, while the preferences, which hold the index, take every write. -/
theorem download_all_or_nothing (now : Moment) (signedIn : m.account.isSome = true)
    (opened : m.store.openState = .initialized) (memory : m.store.database = .memory d)
    (answers : m.service.queryAnswers = script.answers ++ rest)
    (held : ∀ c ∈ script.certificates, (c.endTime.getD {}).Held) :
    ((script.last.isOk = false ∨ d.failOperations = true) →
      m.download now = .ok (false, m.afterScript script rest)) ∧
    (script.last.isOk = true → d.failOperations = false →
      ((m.downloaded d script rest).Plannable →
        ∃ t, m.download now = .ok (true, (m.downloaded d script rest).setTask .cleanup t)) ∧
      (¬ (m.downloaded d script rest).Plannable →
        m.download now = .error ⟨m.downloaded d script rest⟩)) := by
  have present : m.account.isNone = false := by simpa using signedIn
  have adds := Store.addPublic_eq (Store.ensureOpen_of_opened opened) held
  cases ends : script.last with
  | error f =>
      have refused : script.credentials = .error f := by rw [PageScript.credentials, ends]; rfl
      exact ⟨fun _ => download_of_refused present answers refused, fun isOk => nomatch isOk⟩
  | ok page =>
      have reads : ∃ cs, script.credentials = .ok cs := by
        rw [PageScript.credentials, ends]
        exact ⟨_, rfl⟩
      obtain ⟨cs, read⟩ := reads
      rw [script.certificates_of_read read] at adds
      constructor
      · rintro (isError | fails)
        · exact nomatch isError
        · rw [Store.carryOut_of_fails memory fails] at adds
          exact download_of_unstored present answers read adds
      · intro _ works
        rw [Store.carryOut_of_takes memory works] at adds
        have stored : m.download now =
            ((m.downloaded d script rest).act .cleanup .reschedule now).map fun m => (true, m) := by
          rw [downloaded, script.certificates_of_read read]
          exact download_of_stored present answers read adds
        obtain ⟨plans, faults⟩ := act_reschedule_cleanup (m.downloaded d script rest) now
        constructor
        · intro plannable
          obtain ⟨t, planned⟩ := plans plannable
          exact ⟨t, by rw [stored, planned]; rfl⟩
        · intro late
          rw [stored, faults late]
          rfl

open Store (endingAt)

def credential (c : PublicCertificate) : SharedCredential :=
  { data := Message.encode c, dataType := CredentialType.publicCertificate.code }

/-- Two pages, with a certificate that comes twice, one that cannot be read, and something else. -/
def twoPages : PageScript where
  pages := [{ credentials := [credential (endingAt 1 5), { data := [255], dataType := 1 }]
              nextPageToken := "more" }]
  last := .ok { credentials := [{ dataType := 2 }, credential (endingAt 1 9)] }
  goesOn := by decide
  stops := by
    rintro page same
    cases same
    rfl

/-- A signed-in manager with an open store, an observer and running schedulers, to which the service will
tell a script. -/
def subscribed (script : PageScript) : Manager :=
  let created := create {} { id := "dev", name := "Name" } (some ⟨"a@b"⟩)
    { database := .memory {}, openState := .initialized } true { octet := fun _ => 0 }
  let waiting := { created with
    service := { queryAnswers := script.answers }, observers := created.observers.add 0 }
  ((waiting.start ⟨.epoch, 0⟩).toOption).getD waiting

theorem download_all_or_nothing_twoPages : ∃ m',
    (subscribed twoPages).download ⟨.epoch, 0⟩ = .ok (true, m') ∧
    m'.store.database.held.values = [endingAt 1 9] ∧
    m'.service.queried.map CredentialsRequest.pageToken = [none, some "more"] ∧
    m'.observers.delivered = [(0, .publicDownloaded)] := by
  have certificates : twoPages.certificates = [endingAt 1 5, endingAt 1 9] := by rfl
  have held : ∀ c ∈ twoPages.certificates, (c.endTime.getD {}).Held := by
    rw [certificates]
    decide +kernel
  have index : ((subscribed twoPages).downloaded {} twoPages []).store.expirations =
      [([1], .ofUnixNanos 9000000000)] := by
    rw [downloaded, certificates]
    decide +kernel
  have answers : (subscribed twoPages).service.queryAnswers = twoPages.answers ++ [] := rfl
  have law := download_all_or_nothing ⟨.epoch, 0⟩ rfl rfl rfl answers held
  obtain ⟨t, done⟩ := (law.2 rfl rfl).1 fun s _ _ e first => by
    rw [index] at first
    cases first
    decide +kernel
  refine ⟨_, done, ?_, rfl, rfl⟩
  rw [downloaded, certificates]
  rfl

/-- A certificate that ends in the clock's last second is stored and announced, and nothing is returned. -/
def lastSecond : PageScript where
  pages := []
  last := .ok { credentials := [credential (endingAt 1 Int64.maxValue)] }
  goesOn _ none := nomatch none
  stops := by
    rintro page same
    cases same
    rfl

theorem last_second_unanswered :
    lastSecond.last.isOk = true ∧ (subscribed lastSecond).account.isSome = true ∧
    (subscribed lastSecond).store.openState = .initialized ∧
    (subscribed lastSecond).store.database = .memory {} ∧
    (subscribed lastSecond).service.queryAnswers = lastSecond.answers ∧
    (∀ c ∈ lastSecond.certificates, (c.endTime.getD {}).Held) ∧
    lastSecond.certificates = [endingAt 1 Int64.maxValue] ∧
    ¬ Completes ((subscribed lastSecond).download ⟨.epoch, 0⟩) := by
  have certificates : lastSecond.certificates = [endingAt 1 Int64.maxValue] := by rfl
  refine ⟨rfl, rfl, rfl, rfl, rfl, ?_, certificates, ?_⟩
  · rw [certificates]
    decide +kernel
  · decide +kernel

end Manager
end ProximityCert
