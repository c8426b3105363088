import SecretFill.Proofs.Json.Reading
import SecretFill.Proofs.Outcome
import SecretFill.Proofs.Text.Base64
import SecretFill.Secret.Manager
/-!
What becomes of a request for a secret. The status decides first, and a success counts only if its
body holds the secret; all else is laid to the provider, with the locator. A locator that is no name
of a secret is refused before anything is sent.
-/

namespace SecretFill.SecretManager

open SecretFill.Text

/-! ### Bodies -/

def Carries (body : List UInt8) (encoded : List Code) : Prop :=
  ∃ members payload, Json.ofBytes body = .ok (.object members) ∧
    Json.Value.get? "payload" members = some (.object payload) ∧
    Json.Value.get? "data" payload = some (.text (Text.ofList encoded))

/-- A body holds a secret: it carries a spelling of its UTF-8, perhaps with padding in excess. -/
def Holds (body : List UInt8) (value : Text) : Prop :=
  Utf8.Whole value.toList ∧
    ∃ encoded, Carries body encoded ∧ Base64.Legible encoded (Utf8.encode value.toList)

theorem member_eq_ok_iff {key : Text} {whole value : Json.Value} :
    member key whole = .ok value ↔
      ∃ members, whole = .object members ∧ Json.Value.get? key members = some value := by
  cases whole with
  | object members =>
      rw [member]
      cases found : Json.Value.get? key members <;> simp [found]
  | _ => simp [member]

theorem inside_eq_ok_iff {body : List UInt8} {outer inner : Text} {value : Json.Value} :
    inside body outer inner = .ok value ↔
      ∃ members nested, Json.ofBytes body = .ok (.object members) ∧
        Json.Value.get? outer members = some (.object nested) ∧
        Json.Value.get? inner nested = some value := by
  unfold inside
  constructor
  · intro found
    obtain ⟨whole, read, found⟩ := bind_eq_ok found
    obtain ⟨part, first, second⟩ := bind_eq_ok found
    obtain ⟨members, rfl, outside⟩ := member_eq_ok_iff.mp first
    obtain ⟨nested, rfl, within⟩ := member_eq_ok_iff.mp second
    refine ⟨members, nested, ?_, outside, within⟩
    cases parsed : Json.ofBytes body with
    | error fault =>
        rw [parsed] at read
        cases read
    | ok whole =>
        rw [parsed] at read
        cases read
        rfl
  · rintro ⟨members, nested, read, outside, within⟩
    have first := member_eq_ok_iff.mpr ⟨members, rfl, outside⟩
    have second := member_eq_ok_iff.mpr ⟨nested, rfl, within⟩
    rw [read]
    change (member outer (.object members) >>= member inner) = _
    rw [first]
    exact second

theorem decoded_eq_ok_iff {whole : Json.Value} {value : Text} :
    decoded whole = .ok value ↔ Utf8.Whole value.toList ∧ ∃ encoded,
      whole = .text (Text.ofList encoded) ∧
        Base64.Legible encoded (Utf8.encode value.toList) := by
  constructor
  · intro found
    unfold decoded at found
    split at found
    · next encoded =>
        split at found
        · cases found
        · split at found
          · cases found
          · next bytes read =>
              split at found
              · next text decoded =>
                  cases found
                  obtain ⟨free, rfl⟩ := Utf8.decode_eq_ok_iff.mp decoded
                  rw [Base64.decodeStrict_eq_ok_iff] at read
                  refine ⟨free, encoded.toList, by rw [Text.ofList_toList], ?_⟩
                  rwa [Text.toList_ofList]
              · cases found
    · cases found
  · rintro ⟨free, encoded, rfl, legible⟩
    have read := Base64.decodeStrict_eq_ok_iff.mpr legible
    obtain ⟨excess, spells, _⟩ := legible
    have plain : ¬ (encoded.any fun character => 128 ≤ character.toNat) = true := by
      simpa only [List.any_eq_true, decide_eq_true_eq, not_exists, not_and, Nat.not_le]
        using spells.ascii
    simp only [decoded, if_neg plain, read, Utf8.decode_encode free,
      Text.ofList_toList]

theorem secret_eq_ok_iff {body : List UInt8} {value : Text} :
    secret body = .ok value ↔ Holds body value := by
  unfold secret
  constructor
  · intro found
    obtain ⟨whole, carried, found⟩ := bind_eq_ok found
    obtain ⟨free, encoded, rfl, legible⟩ := decoded_eq_ok_iff.mp found
    exact ⟨free, encoded, inside_eq_ok_iff.mp carried, legible⟩
  · rintro ⟨free, encoded, carries, legible⟩
    rw [inside_eq_ok_iff.mpr carries]
    exact decoded_eq_ok_iff.mpr ⟨free, encoded, rfl, legible⟩

/-! ### Answers -/

def Yields (exchange : Exchange) (value : Text) : Prop :=
  ∃ response, exchange = .ok response ∧ 200 ≤ response.status ∧ response.status < 300 ∧
    Holds response.body value

def Missing (exchange : Exchange) : Prop :=
  ∃ response, exchange = .ok response ∧ response.status = 404

def Denied (exchange : Exchange) : Prop :=
  ∃ response, exchange = .ok response ∧ (response.status = 401 ∨ response.status = 403)

/-- The outcomes of a request, each with the answers of which it comes. -/
structure Classified (locator : Text) (exchange : Exchange)
    (outcome : Except SecretError Text) : Prop where
  secret : ∀ value, outcome = .ok value ↔ Yields exchange value
  missing : (∃ hint, outcome = .error (.notFound locator hint)) ↔ Missing exchange
  denied : (∃ reason, outcome = .error (.accessDenied locator reason)) ↔ Denied exchange
  other : (∃ fault, outcome = .error (.provider name fault (some locator))) ↔
    ¬ Missing exchange ∧ ¬ Denied exchange ∧ ∀ value, ¬ Yields exchange value

variable {manager : SecretManager} {locator url : Text} {exchange : Exchange}

theorem classified_fault {fault : TransportFault} {blamed : ProviderFault} :
    Classified locator (.error fault) (.error (.provider name blamed (some locator))) where
  secret := by simp [Yields]
  missing := by simp [Missing]
  denied := by simp [Denied]
  other := by simp [Missing, Denied, Yields]

theorem classified_missing {response : Response} {hint : Option Text}
    (missing : response.status = 404) :
    Classified locator (.ok response) (.error (.notFound locator hint)) where
  secret := by simp [Yields, missing]
  missing := by simp [Missing, missing]
  denied := by simp [Denied, missing]
  other := by simp [Missing, missing]

theorem classified_denied {response : Response} {reason : Text}
    (denied : response.status = 401 ∨ response.status = 403) :
    Classified locator (.ok response) (.error (.accessDenied locator reason)) where
  secret := by
    have failure : ¬ response.status < 300 := by omega
    simp [Yields, failure]
  missing := by
    have present : response.status ≠ 404 := by omega
    simp [Missing, present]
  denied := by simp [Denied, denied]
  other := by simp [Denied, denied]

theorem classified_secret {response : Response} {value : Text} (least : 200 ≤ response.status)
    (most : response.status < 300) (holds : secret response.body = .ok value) :
    Classified locator (.ok response) (.ok value) where
  secret := by
    intro other
    rw [Except.ok.injEq, ← Except.ok.injEq (ε := PayloadFault), ← holds, secret_eq_ok_iff]
    simp [Yields, least, most]
  missing := by
    have present : response.status ≠ 404 := by omega
    simp [Missing, present]
  denied := by
    have granted : ¬ (response.status = 401 ∨ response.status = 403) := by omega
    simp [Denied, granted]
  other := by
    have yields : Yields (.ok response) value :=
      ⟨response, rfl, least, most, secret_eq_ok_iff.mp holds⟩
    constructor
    · rintro ⟨fault, same⟩
      cases same
    · exact fun barren => absurd yields (barren.2.2 value)

theorem classified_other {response : Response} {fault : ProviderFault}
    (present : response.status ≠ 404)
    (granted : ¬ (response.status = 401 ∨ response.status = 403))
    (barren : ∀ value, ¬ Yields (.ok response) value) :
    Classified locator (.ok response) (.error (.provider name fault (some locator))) where
  secret := by simp [barren]
  missing := by simp [Missing, present]
  denied := by simp [Denied, granted]
  other := by simp [Missing, Denied, present, granted, barren]

theorem classified_classify (raised : ∀ fault, exchange = .error fault → fault.isOfClient = false) :
    Classified locator exchange (manager.classify locator url exchange) := by
  unfold classify
  cases exchange with
  | error fault =>
      simp only [raised fault rfl, Bool.false_eq_true, if_false]
      exact classified_fault
  | ok response =>
      -- The checks in their order: each one knows that none before it held.
      dsimp only
      split
      · next missing => exact classified_missing missing
      · next present =>
          split
          · next denied => exact classified_denied denied
          · next granted =>
              split
              · next success =>
                  cases holds : secret response.body with
                  | ok value => exact classified_secret success.1 success.2 holds
                  | error fault =>
                      apply classified_other present granted
                      rintro value ⟨_, same, _, _, held⟩
                      cases same
                      rw [secret_eq_ok_iff.mpr held] at holds
                      cases holds
              · next failure =>
                  apply classified_other present granted
                  rintro value ⟨_, same, least, most, _⟩
                  cases same
                  exact failure ⟨least, most⟩

/-! ### Requests -/

def noting (send : Request → Exchange) (request : Request) : StateM (List Request) Exchange := do
  modify (· ++ [request])
  pure (send request)

def course (manager : SecretManager) (send : Request → Exchange) (locator : Text) :
    Logged SecretError Text × List Request :=
  ((manager.access (noting send) locator).run []).run

theorem course_of_error (manager : SecretManager) (send : Request → Exchange)
    {error : ReferenceError} (refused : resolveLocator locator = .error error) :
    manager.course send locator = (manager.get send locator, []) ∧
      (manager.get send locator).outcome = .error (.unresolved error) := by
  have addressed : manager.accessUrl locator = .error error := by
    rw [accessUrl, refused]
    rfl
  simp only [course, get, access, addressed]
  exact ⟨rfl, rfl⟩

theorem course_of_ok (manager : SecretManager) (send : Request → Exchange) {resource : Text}
    (resolved : resolveLocator locator = .ok resource) :
    let url := manager.endpoint ++ "/v1/" ++ resource ++ ":access"
    manager.course send locator = (manager.get send locator, [manager.request url]) ∧
      (manager.get send locator).outcome =
        manager.classify locator url (send (manager.request url)) := by
  intro url
  have addressed : manager.accessUrl locator = .ok url := by
    rw [accessUrl, resolved]
    rfl
  simp only [course, get, access, addressed]
  exact ⟨rfl, rfl⟩

/-! ### A body with a secret -/

def envelope (encoded : List Code) : List Code :=
  Json.objectOf ("payload" : Text).toList (Json.objectOf ("data" : Text).toList (Json.textOf encoded))

theorem carries_envelope {encoded : List Code} (plain : Json.Plain encoded) :
    Carries (Utf8.encode (envelope encoded)) encoded := by
  have inner : Json.Gives 3 (Json.objectOf ("data" : Text).toList (Json.textOf encoded))
      (.object [("data", .text (Text.ofList encoded))]) :=
    Json.gives_object (by decide +kernel) (fun _ => rfl) (Json.gives_text plain)
  have outer : Json.Gives 5 (envelope encoded)
      (.object [("payload", .object [("data", .text (Text.ofList encoded))])]) :=
    Json.gives_object (by decide +kernel) (fun _ => rfl) inner
  have read := Json.ofText_of_gives outer rfl (by simp [envelope, Json.objectOf]; omega)
  refine ⟨_, [("data", .text (Text.ofList encoded))], (Json.ofBytes_objectOf _ _).trans read,
    ?_, ?_⟩
  · simp [Json.Value.get?]
  · simp [Json.Value.get?]

theorem plain_of_spells {excess : Nat} {encoded : List Code} {bytes : List UInt8}
    (spells : Base64.Spells excess encoded bytes) : Json.Plain encoded := by
  apply spells.forall_mem (fun character : Code =>
    32 ≤ character.toNat ∧ character ≠ '"' ∧ character ≠ '\\') (by decide)
  intro character value digit
  have bounds := Base64.value?_bounds digit
  refine ⟨by omega, ?_, ?_⟩
  · rintro rfl
    exact absurd bounds.1 (by decide)
  · rintro rfl
    exact absurd digit (by decide +revert)

theorem holds_of_carries {body : List UInt8} {value : Text} (free : Utf8.Whole value.toList)
    (carries : Carries body (Base64.encode (Utf8.encode value.toList))) : Holds body value :=
  ⟨free, _, carries, (Base64.spells_encode _).legible⟩

/-- Outcomes of a request are told apart exactly, and there are no others. A locator that does not
resolve is refused and nothing is sent. For any other one request is sent, and its answer decides: a
success whose body holds a secret gives the secret, a status of 404 means that there is none, 401
and 403 that access is denied, and all else is laid to the provider; each of these names the
locator. Any text that a success carries in Base64 of its UTF-8 is given as it is. -/
theorem answers_are_classified (manager : SecretManager) {send : Request → Exchange}
    (raised : ∀ request fault, send request = .error fault → fault.isOfClient = false)
    (locator : Text) :
    (∀ error, resolveLocator locator = .error error →
        manager.course send locator = (manager.get send locator, []) ∧
        (manager.get send locator).outcome = .error (.unresolved error)) ∧
      ∀ resource, resolveLocator locator = .ok resource →
        let request := manager.request (manager.endpoint ++ "/v1/" ++ resource ++ ":access")
        manager.course send locator = (manager.get send locator, [request]) ∧
        Classified locator (send request) (manager.get send locator).outcome ∧
        ∀ response value, send request = .ok response → 200 ≤ response.status →
          response.status < 300 → Utf8.Whole value.toList →
          Carries response.body (Base64.encode (Utf8.encode value.toList)) →
          (manager.get send locator).outcome = .ok value := by
  refine ⟨fun error refused => course_of_error manager send refused, fun resource resolved => ?_⟩
  intro request
  obtain ⟨sent, outcome⟩ := course_of_ok manager send resolved
  have classified : Classified locator (send request) (manager.get send locator).outcome := by
    rw [outcome]
    exact classified_classify (raised request)
  refine ⟨sent, classified, fun response value answered least most free carries => ?_⟩
  exact (classified.secret value).mpr
    ⟨response, answered, least, most, holds_of_carries free carries⟩

/-- A secret with a line break and characters of two, three and four bytes, from a service that is
not reached without a token. -/
theorem answers_are_classified_received :
    let manager : SecretManager := ⟨"https://secrets", some "t", .whole 5⟩
    let value : Text := "motörhead\n€🔑"
    let send : Request → Exchange := fun request =>
      if request.authorization = none then .error ⟨"ConnectError", "refused"⟩
      else .ok ⟨200, Utf8.encode (envelope (Base64.encode (Utf8.encode value.toList)))⟩
    (manager.get send "p/s/1").outcome = .ok value ∧
      (manager.course send "p/s/1").2 =
        [⟨"https://secrets/v1/projects/p/secrets/s/versions/1:access", "application/json",
          some "Bearer t"⟩] := by
  intro manager value send
  have raised : ∀ request fault, send request = .error fault → fault.isOfClient = false := by
    intro request fault failed
    by_cases alone : request.authorization = none
    · simp only [send, if_pos alone] at failed
      cases failed
      decide +kernel
    · simp only [send, if_neg alone] at failed
      cases failed
  have resolved : resolveLocator "p/s/1" = .ok "projects/p/secrets/s/versions/1" :=
    eq_ok_of_toOption (by decide +kernel)
  obtain ⟨sent, _, received⟩ := (answers_are_classified manager raised "p/s/1").2 _ resolved
  have spells := Base64.spells_encode (Utf8.encode value.toList)
  refine ⟨received _ value rfl ?_ ?_ ?_ (carries_envelope (plain_of_spells spells)), ?_⟩
  · exact Nat.le_refl 200
  · decide
  · decide +kernel
  · rw [sent]
    decide +kernel

/-- Padding in excess is not minded: what is carried here spells no bytes without it, and is
received as a secret. -/
theorem padding_in_excess_is_received :
    let manager : SecretManager := ⟨"https://secrets", some "t", .whole 5⟩
    let send : Request → Exchange := fun _ => .ok ⟨200, Utf8.encode (envelope ("YWJj=" : Text).toList)⟩
    (manager.get send "p/s/1").outcome = .ok "abc" ∧
      Carries (Utf8.encode (envelope ("YWJj=" : Text).toList)) ("YWJj=" : Text).toList ∧
      ∀ bytes, ¬ Base64.Spells 0 ("YWJj=" : Text).toList bytes := by
  intro manager send
  have resolved : resolveLocator "p/s/1" = .ok "projects/p/secrets/s/versions/1" :=
    eq_ok_of_toOption (by decide +kernel)
  have carries : Carries (Utf8.encode (envelope ("YWJj=" : Text).toList)) ("YWJj=" : Text).toList :=
    carries_envelope (by decide +kernel)
  have legible : Base64.Legible ("YWJj=" : Text).toList (Utf8.encode ("abc" : Text).toList) :=
    Base64.decodeStrict_eq_ok_iff.mp (eq_ok_of_toOption (by decide +kernel))
  have classified : Classified "p/s/1" (.ok ⟨200, Utf8.encode (envelope ("YWJj=" : Text).toList)⟩)
      (manager.get send "p/s/1").outcome := by
    rw [(course_of_ok manager send resolved).2]
    exact classified_classify fun _ failed => nomatch failed
  exact ⟨(classified.secret "abc").mpr ⟨_, rfl, by decide, by decide, by decide +kernel, _, carries,
      legible⟩,
    carries,
    fun bytes spells => absurd spells.length (by decide +kernel)⟩

end SecretFill.SecretManager
