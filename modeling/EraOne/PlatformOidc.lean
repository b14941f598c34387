import EraOne.GoTime
import EraOne.Maps
import EraOne.Processes
import EraOne.Scan
import EraOne.Strings

set_option autoImplicit false

/- The authorization codes of the OIDC provider (`server.go`, `store.go`). A request runs in turns,
each with one section under the lock; other requests come in between. -/
namespace EraOne.Oidc

open GoTime Maps Processes Runs

structure User where
  id : Str
  tenantID : Str
  email : Str
  password : Str
  roles : List Str
  deriving DecidableEq

structure AuthCode where
  clientID : Str
  redirectURI : Str
  challenge : Str
  method : Str
  userID : Str
  expires : Time
  deriving DecidableEq

/-- The server with its store in memory, and the reading of the clock. -/
structure Server where
  codes : StrMap AuthCode := ∅
  users : StrMap User
  clients : StrMap (List Str)
  now : Time
  /-- How many codes were drawn. -/
  drawn : Nat := 0

/-- What the handlers use: uuids, which differ, `strings.ToLower`, the S256 challenge of a verifier,
the signed token, and the `Location` for a redirect URI, a code and a state, if the URI can be
parsed. -/
structure Libs where
  uuid : Nat ↪ Str
  lower : Str → Str
  s256 : Str → Str
  mint : User → Time → Except Str Str
  location : Str → Str → Str → Option Str

structure Query where
  clientID : Str
  redirectURI : Str
  challenge : Str
  method : Str
  state : Str := []

structure LoginForm where
  parseError : Option Str := none
  email : Str
  password : Str
  query : Query

structure TokenForm where
  post : Bool := true
  parseError : Option Str := none
  code : Str
  verifier : Str

inductive Response where
  | error (status : Nat) (text : Str)
  | login (query : Query)
  | redirect (location : Str)
  | token (access : Str)
  /-- `net/http` drops the connection of a handler that panics. -/
  | dropped

inductive Request where
  | authorize (query : Query)
  | login (form : LoginForm)
  | token (form : TokenForm)

/-- What a request is about to do. -/
inductive Phase where
  | begun (request : Request)
  | loggedIn (form : LoginForm) (userID : Str)
  | granted (form : TokenForm) (ac : AuthCode) (access : Str)
  | answered (response : Response)

/-- A successful answer to a token request. -/
structure Redemption where
  code : Str
  verifier : Str
  ac : AuthCode
  time : Time

/-- The server, the codes that it has issued and sent, and those that it has redeemed. -/
structure Watched where
  server : Server
  issued : List (Str × AuthCode) := []
  sent : List (Str × AuthCode) := []
  redeemed : List Redemption := []

def validateRedirect (clients : StrMap (List Str)) (clientID redirectURI : Str) : Bool :=
  match clients[clientID]? with
  | none => false
  | some uris => uris.any fun u => u = redirectURI

def Server.verifyLogin (s : Server) (email password : Str) : Bool :=
  s.users[email]?.any fun u => u.password = password

def Server.getUserByID (s : Server) (id : Str) : Option User :=
  (s.users.toList.map Prod.snd).find? fun u => u.id = id

def authorize (s : Server) (q : Query) : Response :=
  if q.clientID = [] ∨ q.redirectURI = [] ∨
    q.challenge = [] then .error 400 "invalid request".toList
  else if ¬ validateRedirect s.clients q.clientID q.redirectURI then
    .error 400 "invalid redirect".toList
  else .login q

section Handlers

variable (libs : Libs)

/-- The user who submits the form. -/
def checkLogin (s : Server) (form : LoginForm) : Except Response Str :=
  match form.parseError with
  | some e => .error (.error 400 e)
  | none =>
      let email := libs.lower (Scan.trim form.email)
      if ¬ s.verifyLogin email form.password then .error (.error 401 "invalid credentials".toList)
      else
        match s.users[email]? with
        | none => .error (.error 401 "invalid credentials".toList)
        | some u => .ok u.id

def newCode (s : Server) (form : LoginForm) (userID : Str) : AuthCode where
  clientID := form.query.clientID
  redirectURI := form.query.redirectURI
  challenge := form.query.challenge
  method := form.query.method
  userID := userID
  expires := s.now.add (5 * minute)

/-- The section of `loginSubmit` under the lock, and the redirect. -/
def issue (w : Watched) (form : LoginForm) (userID : Str) : Watched × Phase :=
  let code := libs.uuid w.server.drawn
  let ac := newCode w.server form userID
  let next : Watched :=
    { w with
      server :=
        { w.server with drawn := w.server.drawn + 1, codes := w.server.codes.insert code ac }
      issued := w.issued ++ [(code, ac)] }
  match libs.location form.query.redirectURI code form.query.state with
  | none => (next, .answered .dropped)
  | some location =>
      ({ next with sent := next.sent ++ [(code, ac)] }, .answered (.redirect location))

/-- What `token` does before the code is deleted. -/
def grant (s : Server) (form : TokenForm) : Except Response (AuthCode × Str) :=
  if ¬ form.post then .error (.error 405 "method not allowed".toList)
  else
    match form.parseError with
    | some e => .error (.error 400 e)
    | none =>
      match s.codes[form.code]? with
      | none => .error (.error 400 "invalid code".toList)
      | some ac =>
        if s.now.after ac.expires then .error (.error 400 "invalid code".toList)
        else if ac.method = "S256".toList ∧ libs.s256 form.verifier ≠ ac.challenge then
          .error (.error 400 "pkce failed".toList)
        else
          match s.getUserByID ac.userID with
          | none => .error (.error 400 "invalid user".toList)
          | some u =>
            match libs.mint u s.now with
            | .error e => .error (.error 500 e)
            | .ok access => .ok (ac, access)

/-- The section of `token` under the lock that deletes the code, and the answer. -/
def redeem (w : Watched) (form : TokenForm) (ac : AuthCode) (access : Str) : Watched × Phase :=
  ({ w with
      server := { w.server with codes := w.server.codes.erase form.code }
      redeemed := w.redeemed ++ [⟨form.code, form.verifier, ac, w.server.now⟩] },
    .answered (.token access))

def turn (w : Watched) : Phase → Watched × Phase
  | .begun (.authorize q) => (w, .answered (authorize w.server q))
  | .begun (.login form) =>
      match checkLogin libs w.server form with
      | .error r => (w, .answered r)
      | .ok userID => (w, .loggedIn form userID)
  | .loggedIn form userID => issue libs w form userID
  | .begun (.token form) =>
      match grant libs w.server form with
      | .error r => (w, .answered r)
      | .ok (ac, access) => (w, .granted form ac access)
  | .granted form ac access => redeem w form ac access
  | .answered r => (w, .answered r)

/-- Time passes, and users register. -/
inductive Change where
  | clock (now : Time)
  | createUser (u : User)

def Watched.change (w : Watched) : Change → Watched
  | .clock now => { w with server := { w.server with now := now } }
  | .createUser u => { w with server := { w.server with users := w.server.users.insert u.email u } }

def handlers : Program Watched Phase Request Change where
  start := .begun
  turn := turn libs
  outside := Watched.change

abbrev State := System Watched Phase

def start (users : StrMap User) (clients : StrMap (List Str)) (now : Time) : State :=
  ⟨{ server := { users := users, clients := clients, now := now } }, []⟩

/-! ### Single use -/

/-- Codes are issued once, sent only to a URI that is registered for their client, and redeemed at
most once, before they expire and against their challenge. -/
structure Bound (w : Watched) : Prop where
  distinct : (w.issued.map Prod.fst).Nodup
  sent : ∀ e ∈ w.sent, e ∈ w.issued ∧
    validateRedirect w.server.clients e.2.clientID e.2.redirectURI = true
  once : (w.redeemed.map Redemption.code).Nodup
  bound : ∀ r ∈ w.redeemed, (r.code, r.ac) ∈ w.issued ∧ r.time.after r.ac.expires = false ∧
    r.ac.challenge ≠ [] ∧ libs.s256 r.verifier = r.ac.challenge

/-- A code is sent for a query that `authorize` would accept, and a code that is about to be deleted
is still there, has not expired and has a challenge that the verifier matches. -/
def Safe (w : Watched) : Phase → Prop
  | .loggedIn form _ =>
      (libs.location form.query.redirectURI (libs.uuid w.server.drawn) form.query.state).isSome =
        true →
        validateRedirect w.server.clients form.query.clientID form.query.redirectURI = true
  | .granted form ac _ =>
      w.server.codes[form.code]?.isSome = true ∧ w.server.now.after ac.expires = false ∧
        ac.challenge ≠ [] ∧
        libs.s256 form.verifier = ac.challenge
  | _ => True

/-- Codes are in the map until they are redeemed. -/
structure Tracked (s : State) : Prop where
  bound : Bound libs s.shared
  stored : ∀ (code : Str) (ac : AuthCode), s.shared.server.codes[code]? = some ac →
    (code, ac) ∈ s.shared.issued
  named : ∀ e ∈ s.shared.issued, ∃ n < s.shared.server.drawn, e.1 = libs.uuid n
  kept : ∀ e ∈ s.shared.issued, s.shared.server.codes[e.1]? = some e.2 ∨
    e.1 ∈ s.shared.redeemed.map Redemption.code
  spent : ∀ r ∈ s.shared.redeemed, s.shared.server.codes[r.code]? = none
  held : ∀ (form : TokenForm) (ac : AuthCode) (access : Str),
    Phase.granted form ac access ∈ s.locals →
    (form.code, ac) ∈ s.shared.issued

variable {libs}

theorem fresh_of_tracked (s : State) (tracked : Tracked libs s) :
    ∀ e ∈ s.shared.issued, e.1 ≠ libs.uuid s.shared.server.drawn := by
  intro e member same
  obtain ⟨n, below, name⟩ := tracked.named e member
  have index := libs.uuid.injective (name.symm.trans same)
  omega

/-- A turn that leaves the server alone. -/
theorem tracked_locals (s : State) (locals : List Phase) (tracked : Tracked libs s)
    (held : ∀ (form : TokenForm) (ac : AuthCode) (access : Str),
      Phase.granted form ac access ∈ locals →
      (form.code, ac) ∈ s.shared.issued) : Tracked libs ⟨s.shared, locals⟩ :=
  ⟨tracked.bound, tracked.stored, tracked.named, tracked.kept, tracked.spent, held⟩

theorem held_set (s : State) (issued : List (Str × AuthCode)) (i : Nat) (next : Phase)
    (tracked : Tracked libs s) (more : s.shared.issued ⊆ issued)
    (new : ∀ (form : TokenForm) (ac : AuthCode) (access : Str), next = .granted form ac access →
      (form.code, ac) ∈ issued) (form : TokenForm) (ac : AuthCode) (access : Str)
    (member : Phase.granted form ac access ∈ s.locals.set i next) : (form.code, ac) ∈ issued := by
  rcases List.mem_or_eq_of_mem_set member with old | same
  · exact more (tracked.held form ac access old)
  · exact new form ac access same.symm

theorem grant_stored (s : Server) (form : TokenForm) (ac : AuthCode) (access : Str)
    (granted : grant libs s form = .ok (ac, access)) : s.codes[form.code]? = some ac := by
  unfold grant at granted
  split at granted
  · cases granted
  · split at granted
    · cases granted
    · split at granted
      · cases granted
      · rename_i stored found
        split at granted
        · cases granted
        · split at granted
          · cases granted
          · split at granted
            · cases granted
            · split at granted
              · cases granted
              · obtain ⟨rfl, -⟩ := Prod.mk.inj (Except.ok.inj granted)
                exact found

/-! ### Issuing a code -/

variable (libs) in
theorem issue_server (w : Watched) (form : LoginForm) (userID : Str) :
    (issue libs w form userID).1.server =
        { w.server with
          drawn := w.server.drawn + 1
          codes :=
            w.server.codes.insert (libs.uuid w.server.drawn) (newCode w.server form userID) } ∧
      (issue libs w form userID).1.issued =
        w.issued ++ [(libs.uuid w.server.drawn, newCode w.server form userID)] ∧
      (issue libs w form userID).1.redeemed = w.redeemed ∧
      ∃ r, (issue libs w form userID).2 = .answered r := by
  unfold issue
  dsimp only
  split <;> exact ⟨rfl, rfl, rfl, _, rfl⟩

variable (libs) in
theorem issue_sent (w : Watched) (form : LoginForm) (userID : Str) :
    (issue libs w form userID).1.sent =
      if (libs.location form.query.redirectURI (libs.uuid w.server.drawn) form.query.state).isSome =
        true then
        w.sent ++ [(libs.uuid w.server.drawn, newCode w.server form userID)]
      else w.sent := by
  unfold issue
  dsimp only
  cases libs.location form.query.redirectURI (libs.uuid w.server.drawn) form.query.state with
  | none => rfl
  | some location => rfl

theorem bound_issue_iff (s : State) (form : LoginForm) (userID : Str) (tracked : Tracked libs s) :
    Bound libs (issue libs s.shared form userID).1 ↔
      Safe libs s.shared (.loggedIn form userID) := by
  obtain ⟨server, issued, redeemed, -⟩ := issue_server libs s.shared form userID
  have sent := issue_sent libs s.shared form userID
  have clients : (issue libs s.shared form userID).1.server.clients = s.shared.server.clients := by
    rw [server]
  constructor
  · intro bound located
    rw [if_pos located] at sent
    have registered :=
      (bound.sent (libs.uuid s.shared.server.drawn, newCode s.shared.server form userID)
        (by rw [sent]; exact List.mem_append_right _ (List.mem_singleton.mpr rfl))).2
    rw [clients] at registered
    exact registered
  · intro safe
    have fresh := fresh_of_tracked s tracked
    refine ⟨?_, ?_, ?_, ?_⟩
    · rw [issued, List.map_append, List.map_singleton, List.nodup_append]
      refine ⟨tracked.bound.distinct, List.nodup_singleton _, ?_⟩
      intro code member other last same
      obtain ⟨e, there, rfl⟩ := List.mem_map.mp member
      rw [List.mem_singleton.mp last] at same
      exact fresh e there same
    · intro e member
      rw [issued, clients]
      have old (before : e ∈ s.shared.sent) := tracked.bound.sent e before
      rw [sent] at member
      split at member
      · rename_i located
        rcases List.mem_append.mp member with before | new
        · exact ⟨List.mem_append_left _ (old before).1, (old before).2⟩
        · refine ⟨List.mem_append_right _ new, ?_⟩
          rw [List.mem_singleton.mp new]
          exact safe located
      · exact ⟨List.mem_append_left _ (old member).1, (old member).2⟩
    · rw [redeemed]
      exact tracked.bound.once
    · intro r member
      rw [redeemed] at member
      rw [issued]
      obtain ⟨there, rest⟩ := tracked.bound.bound r member
      exact ⟨List.mem_append_left _ there, rest⟩

theorem tracked_issue (s : State) (i : Nat) (form : LoginForm) (userID : Str)
    (tracked : Tracked libs s) (bound : Bound libs (issue libs s.shared form userID).1) :
    Tracked libs ⟨(issue libs s.shared form userID).1,
      s.locals.set i (issue libs s.shared form userID).2⟩ := by
  obtain ⟨server, issued, redeemed, answer⟩ := issue_server libs s.shared form userID
  have fresh := fresh_of_tracked s tracked
  refine ⟨bound, ?_, ?_, ?_, ?_, ?_⟩
  · intro code ac found
    dsimp only at found ⊢
    rw [server, getElem?_insert_eq] at found
    rw [issued]
    split at found
    · rename_i here
      rw [here, ← Option.some.inj found]
      exact List.mem_append_right _ (List.mem_singleton.mpr rfl)
    · exact List.mem_append_left _ (tracked.stored code ac found)
  · intro e member
    dsimp only at member ⊢
    rw [issued] at member
    rw [server]
    rcases List.mem_append.mp member with before | new
    · obtain ⟨n, below, name⟩ := tracked.named e before
      exact ⟨n, Nat.lt_succ_of_lt below, name⟩
    · refine ⟨s.shared.server.drawn, Nat.lt_succ_self _, ?_⟩
      rw [List.mem_singleton.mp new]
  · intro e member
    dsimp only at member ⊢
    rw [issued] at member
    rw [server, redeemed, getElem?_insert_eq]
    rcases List.mem_append.mp member with before | new
    · rw [if_neg (fresh e before)]
      exact tracked.kept e before
    · rw [List.mem_singleton.mp new, if_pos rfl]
      exact Or.inl rfl
  · intro r member
    dsimp only at member ⊢
    rw [redeemed] at member
    rw [server, getElem?_insert_eq, if_neg (fresh _ (tracked.bound.bound r member).1)]
    exact tracked.spent r member
  · apply held_set s _ i _ tracked
    · dsimp only
      rw [issued]
      exact List.subset_append_left _ _
    · intro token ac access same
      obtain ⟨r, answered⟩ := answer
      rw [answered] at same
      cases same

/-! ### Redeeming a code -/

theorem redeemed_of_missing (s : State) (code : Str) (ac : AuthCode) (tracked : Tracked libs s)
    (member : (code, ac) ∈ s.shared.issued) :
    s.shared.server.codes[code]?.isSome = true ↔ code ∉ s.shared.redeemed.map Redemption.code := by
  constructor
  · intro there spent
    obtain ⟨r, found, rfl⟩ := List.mem_map.mp spent
    rw [tracked.spent r found] at there
    cases there
  · intro unspent
    rw [(tracked.kept _ member).resolve_right unspent]
    rfl

theorem bound_redeem_iff (s : State) (form : TokenForm) (ac : AuthCode) (access : Str)
    (tracked : Tracked libs s) (member : (form.code, ac) ∈ s.shared.issued) :
    Bound libs (redeem s.shared form ac access).1 ↔
      Safe libs s.shared (.granted form ac access) := by
  have there := redeemed_of_missing s form.code ac tracked member
  unfold Safe redeem
  dsimp only
  rw [there]
  constructor
  · intro bound
    have once := bound.once
    rw [List.map_append, List.map_singleton, List.nodup_append] at once
    refine ⟨?_, (bound.bound _ (List.mem_append_right _ (List.mem_singleton.mpr rfl))).2⟩
    intro spent
    exact once.2.2 _ spent _ (List.mem_singleton.mpr rfl) rfl
  · intro ⟨unspent, holds⟩
    refine ⟨tracked.bound.distinct, tracked.bound.sent, ?_, ?_⟩
    · rw [List.map_append, List.map_singleton, List.nodup_append]
      refine ⟨tracked.bound.once, List.nodup_singleton _, ?_⟩
      intro code before other last same
      rw [same, List.mem_singleton.mp last] at before
      exact unspent before
    · intro r new
      rcases List.mem_append.mp new with before | last
      · exact tracked.bound.bound r before
      · rw [List.mem_singleton.mp last]
        exact ⟨member, holds⟩

theorem tracked_redeem (s : State) (i : Nat) (form : TokenForm) (ac : AuthCode) (access : Str)
    (tracked : Tracked libs s) (bound : Bound libs (redeem s.shared form ac access).1) :
    Tracked libs ⟨(redeem s.shared form ac access).1,
      s.locals.set i (redeem s.shared form ac access).2⟩ := by
  have erased (code : Str) : (s.shared.server.codes.erase form.code)[code]? =
      if code = form.code then none else s.shared.server.codes[code]? := by
    rw [Std.ExtTreeMap.getElem?_erase]
    by_cases same : code = form.code
    · simp [same]
    · rw [if_neg same, if_neg fun equal => same (Std.LawfulEqCmp.eq_of_compare equal).symm]
  refine ⟨bound, ?_, tracked.named, ?_, ?_, ?_⟩
  · intro code other found
    change (s.shared.server.codes.erase form.code)[code]? = some other at found
    rw [erased] at found
    split at found
    · cases found
    · exact tracked.stored code other found
  · intro e member
    change (s.shared.server.codes.erase form.code)[e.1]? = some e.2 ∨
      e.1 ∈ (s.shared.redeemed ++ [_]).map Redemption.code
    rw [erased, List.map_append, List.mem_append]
    by_cases here : e.1 = form.code
    · exact Or.inr (Or.inr (List.mem_singleton.mpr here))
    · rw [if_neg here]
      rcases tracked.kept e member with found | spent
      · exact Or.inl found
      · exact Or.inr (Or.inl spent)
  · intro r member
    change (s.shared.server.codes.erase form.code)[r.code]? = none
    rw [erased]
    split
    · rfl
    · rename_i other
      rcases List.mem_append.mp member with before | last
      · exact tracked.spent r before
      · rw [List.mem_singleton.mp last] at other
        exact absurd rfl other
  · apply held_set s _ i _ tracked
    · exact List.Subset.refl _
    · intro token code token' same
      cases same

/-! ### Every order of requests -/

variable (libs)

theorem bound_step_iff (s : State) (input : Input Request Change) (tracked : Tracked libs s) :
    Bound libs ((handlers libs).step s input).shared ↔ OnTurn (Safe libs) s input := by
  cases input with
  | begin request => exact iff_of_true tracked.bound trivial
  | outside change =>
      have bound := tracked.bound
      cases change with
      | clock now => exact iff_of_true ⟨bound.distinct, bound.sent, bound.once, bound.bound⟩ trivial
      | createUser u =>
          exact iff_of_true ⟨bound.distinct, bound.sent, bound.once, bound.bound⟩ trivial
  | turn i =>
      cases found : s.locals[i]? with
      | none =>
          rw [step_no_turn _ s i found]
          exact iff_of_true tracked.bound (onTurn_none _ s i found)
      | some t =>
          rw [step_turn _ s i t found, onTurn_iff _ s i t found]
          change Bound libs (turn libs s.shared t).1 ↔ _
          cases t with
          | loggedIn form userID => exact bound_issue_iff s form userID tracked
          | granted form ac access =>
              exact bound_redeem_iff s form ac access tracked
                (tracked.held form ac access (List.mem_of_getElem? found))
          | answered r => exact iff_of_true tracked.bound trivial
          | begun request =>
              cases request with
              | authorize q => exact iff_of_true tracked.bound trivial
              | login form =>
                  apply iff_of_true _ trivial
                  unfold turn
                  dsimp only
                  split <;> exact tracked.bound
              | token form =>
                  apply iff_of_true _ trivial
                  unfold turn
                  dsimp only
                  split <;> exact tracked.bound

theorem tracked_step (s : State) (input : Input Request Change) (tracked : Tracked libs s)
    (safe : OnTurn (Safe libs) s input) : Tracked libs ((handlers libs).step s input) := by
  have bound := (bound_step_iff libs s input tracked).mpr safe
  cases input with
  | begin request =>
      apply tracked_locals s _ tracked
      intro form ac access member
      rcases List.mem_append.mp member with old | new
      · exact tracked.held form ac access old
      · cases List.mem_singleton.mp new
  | outside change =>
      cases change with
      | clock now =>
          exact ⟨bound, tracked.stored, tracked.named, tracked.kept, tracked.spent, tracked.held⟩
      | createUser u =>
          exact ⟨bound, tracked.stored, tracked.named, tracked.kept, tracked.spent, tracked.held⟩
  | turn i =>
      cases found : s.locals[i]? with
      | none =>
          rw [step_no_turn _ s i found]
          exact tracked
      | some t =>
          rw [step_turn _ s i t found] at bound ⊢
          change Bound libs (turn libs s.shared t).1 at bound
          change Tracked libs ⟨(turn libs s.shared t).1, s.locals.set i (turn libs s.shared t).2⟩
          have silent (next : Phase) (new : ∀ (form : TokenForm) (ac : AuthCode) (access : Str),
              next = .granted form ac access → (form.code, ac) ∈ s.shared.issued) :
              Tracked libs ⟨s.shared, s.locals.set i next⟩ :=
            tracked_locals s _ tracked (held_set s _ i next tracked (List.Subset.refl _) new)
          cases t with
          | loggedIn form userID => exact tracked_issue s i form userID tracked bound
          | granted form ac access => exact tracked_redeem s i form ac access tracked bound
          | answered r => exact silent _ (by intro _ _ _ same; cases same)
          | begun request =>
              cases request with
              | authorize q => exact silent _ (by intro _ _ _ same; cases same)
              | login form =>
                  unfold turn
                  dsimp only
                  split <;> exact silent _ (by intro _ _ _ same; cases same)
              | token form =>
                  unfold turn
                  dsimp only
                  split
                  · exact silent _ (by intro _ _ _ same; cases same)
                  · rename_i ac access granted
                    apply silent
                    intro _ _ _ same
                    cases same
                    exact tracked.stored form.code ac
                      (grant_stored s.shared.server form ac access granted)

theorem tracked_start (users : StrMap User) (clients : StrMap (List Str)) (now : Time) :
    Tracked libs (start users clients now) := by
  refine ⟨⟨List.nodup_nil, ?_, List.nodup_nil, ?_⟩, ?_, ?_, ?_, ?_, ?_⟩
  · intro e member
    cases member
  · intro r member
    cases member
  · intro code ac found
    simp [start] at found
  · intro e member
    cases member
  · intro e member
    cases member
  · intro r member
    cases member
  · intro form ac access member
    cases member

/-- In every order of the turns of any requests, codes are single use and bound if and only if every
turn is safe. -/
theorem codes_single_use_iff (users : StrMap User) (clients : StrMap (List Str)) (now : Time)
    (inputs : List (Input Request Change)) :
    Always (handlers libs).step (fun s => Bound libs s.shared) (start users clients now) inputs ↔
      Guarded (handlers libs).step (OnTurn (Safe libs)) (start users clients now) inputs :=
  always_iff_guarded_of_invariant _ (Tracked libs) _ _ (bound_step_iff libs)
    (tracked_step libs) _ inputs
    (tracked_start libs users clients now) (tracked_start libs users clients now).bound

end Handlers

/-- A provider with one client and one user, whose uuids are numbers. -/
def plainLibs : Libs where
  uuid := ⟨Nat.toDigits 10, fun m n same => by
    have read := congrArg Scan.parseDigits same
    rw [Scan.parseDigits_toDigits, Scan.parseDigits_toDigits] at read
    exact Option.some.inj read⟩
  lower := id
  s256 verifier := 's' :: verifier
  mint u _ := .ok u.id
  location uri code _ := some (uri ++ "?code=".toList ++ code)

def alice : User where
  id := "u-alice".toList
  tenantID := "t-demo".toList
  email := "alice@mail.gov.az".toList
  password := "1234".toList
  roles := ["mail.user".toList]

def webmail : Query where
  clientID := "era-webmail".toList
  redirectURI := "http://localhost:8180/mail/callback".toList
  challenge := "sv".toList
  method := "S256".toList

def oneUser : State :=
  start (Std.ExtTreeMap.ofList [(alice.email, alice)])
    (Std.ExtTreeMap.ofList [(webmail.clientID, [webmail.redirectURI])])
    zeroTime

/-- Two token requests for one code, both of which look it up before either deletes it. -/
def tokenTwice : List (Input Request Change) :=
  [.begin (.login { email := alice.email, password := alice.password, query := webmail }), .turn 0,
    .turn 0, .begin (.token { code := "0".toList, verifier := "v".toList }),
    .begin (.token { code := "0".toList, verifier := "v".toList }), .turn 1, .turn 2, .turn 1,
    .turn 2]

theorem code_redeemed_twice :
    ¬ Always (handlers plainLibs).step (fun s => Bound plainLibs s.shared) oneUser tokenTwice := by
  intro always
  have once := always.last.once
  revert once
  decide +kernel

end EraOne.Oidc
