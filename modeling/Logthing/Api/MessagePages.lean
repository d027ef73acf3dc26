import Logthing.Api.Import
import Logthing.Api.IncidentPages
import Logthing.Storage.Growth

/-!
# Pages of messages

`handleMessages` asks the store for one message more than the page holds.  A client asks for page
after page until there is none left; meanwhile messages come in.

**Main results.**  `messages_paged`: a client that gets to the last page has been shown every
message that matched when it started, in order, whatever came in meanwhile; and where nothing came
in it gets there and has been shown nothing else.
-/

namespace Logthing.Api

open Paging

/-! ## The handler -/

/-- The standard-library functions that `parseMessagesQuery` is written with. -/
structure QueryLib where
  /-- `time.Parse(time.RFC3339Nano, value)`. -/
  parseTime : String → Except String Time
  /-- The verb `%q`. -/
  quote : String → String

/-- The values of a request's query parameters: the first one of each name, empty where there is
none, and all those of `host`. -/
structure MessagesRequest where
  limit : String := ""
  offset : String := ""
  since : String := ""
  until_ : String := ""
  q : String := ""
  host : List String := []

def defaultMessageLimit : ℤ := 200

def maxMessageLimit : ℤ := 2000

/-- How `parseMessagesQuery` reads a number. -/
def parseQueryNumber (lib : QueryLib) (name value : String) (default : ℤ) (accepts : ℤ → Bool)
    (err : String) : Except String ℤ :=
  let raw := trimSpace value
  if raw = "" then .ok default
  else
    match Text.atoi raw.toList with
    | none => .error ("invalid " ++ name ++ " " ++ lib.quote raw)
    | some parsed => if accepts parsed then .ok parsed else .error err

/-- `cleanQueryValues`. -/
def cleanQueryValues (values : List String) : List String :=
  ((values.map trimSpace).filter (· ≠ "")).foldl
    (fun cleaned value => if value ∈ cleaned then cleaned else cleaned ++ [value]) []

/-- `parseOptionalTime`. -/
def parseOptionalTime (lib : QueryLib) (value : String) : Except String (Option Time) :=
  let value := trimSpace value
  if value = "" then .ok none else (lib.parseTime value).map some

/-- `parseMessagesQuery`. -/
def parseMessagesQuery (lib : QueryLib) (r : MessagesRequest) : Except String Logthing.Query := do
  let limit ← parseQueryNumber lib "limit" r.limit defaultMessageLimit
    (fun limit => 0 < limit && limit ≤ maxMessageLimit)
    ("limit must be between 1 and " ++ toString maxMessageLimit)
  let offset ← parseQueryNumber lib "offset" r.offset 0 (fun offset => 0 ≤ offset)
    "offset must be greater than or equal to 0"
  let since ← (parseOptionalTime lib r.since).mapError ("invalid since: " ++ ·)
  let until_ ← (parseOptionalTime lib r.until_).mapError ("invalid until: " ++ ·)
  return { text := r.q, hosts := cleanQueryValues r.host, limit, offset, since, until_ }

/-- `messagesResponse`. -/
structure MessagesResponse where
  data : List Message
  info : MessagesMeta

/-- `handleMessages`, on a `FileStore`.  Of the store's errors `ErrInvalidFilter` is the one of the
text filter. -/
def handleMessages (lib : QueryLib) (go : GoLib) (store : FileStore) (disk : Disk)
    (r : MessagesRequest) : Except ErrorResponse MessagesResponse × FileStore :=
  match parseMessagesQuery lib r with
  | .error err => (.error ⟨400, err⟩, store)
  | .ok q =>
      let (result, store) := Logthing.query go store disk { q with limit := q.limit + 1 }
      match result with
      | .error err =>
          match compileTextFilter go q.text with
          | .error _ => (.error ⟨400, err⟩, store)
          | .ok _ => (.error ⟨500, "query messages"⟩, store)
      | .ok messages =>
          let hasMore := decide (q.limit < messages.length)
          let messages := if hasMore then messages.take q.limit.toNat else messages
          (.ok ⟨messages, ⟨messages.length, q.limit, q.offset, hasMore⟩⟩, store)

/-! ## A client that reads all pages -/

/-- The request for the `k`-th page. -/
def MessagesRequest.page (r : MessagesRequest) (limit k : ℕ) : MessagesRequest :=
  { r with limit := toString limit, offset := toString (k * limit) }

/-- The messages of the pages from the `k`-th on, if the last one comes within this many requests;
`calls k` are made on the store after the `k`-th. -/
def readMessages (lib : QueryLib) (go : GoLib) (r : MessagesRequest) (limit : ℕ)
    (calls : ℕ → List StoreCall) : ℕ → ℕ → Disk × FileStore → Option (List Message)
  | 0, _, _ => none
  | requests + 1, k, (disk, store) =>
      match handleMessages lib go store disk (r.page limit k) with
      | (.error _, _) => none
      | (.ok response, store) =>
          if response.info.hasMore then
            (readMessages lib go r limit calls requests (k + 1)
              (runCalls go (disk, store) (calls k))).map (response.data ++ ·)
          else some response.data

/-- The messages of a directory that a query is for, latest first. -/
def listing (go : GoLib) (q : Logthing.Query) (accepts : Message → Bool) (disk : Disk) :
    List Message :=
  ((Sorting.desc Row.key (storedRows go disk)).map Row.message).filter (wanted q accepts)

/-! ## One page -/

lemma trimSpace_toString (n : ℕ) : trimSpace (toString n) = toString n := by
  have hspace : ∀ c ∈ (toString (n : ℤ)).toList, Text.isSpace c = false := by
    intro c hc
    rcases Text.digit_or_minus_of_mem_toString hc with hdigit | rfl
    · exact Text.isSpace_of_isDigit hdigit
    · decide
  rw [trimSpace]
  exact (congrArg String.ofList (Text.trimSpace_of_none hspace)).trans String.ofList_toList

lemma toString_ne_empty (n : ℕ) : toString n ≠ "" := by
  intro hn
  have hdigits := congrArg String.toList hn
  exact Nat.toDigits_ne_nil (Nat.toList_repr.symm.trans hdigits)

/-- A number that is written out is read. -/
lemma parseQueryNumber_toString (lib : QueryLib) (name : String) {n : ℕ} (hn : n < 2 ^ 63)
    (default : ℤ) {accepts : ℤ → Bool} (haccepts : accepts n = true) (err : String) :
    parseQueryNumber lib name (toString n) default accepts err = .ok (n : ℤ) := by
  simp only [parseQueryNumber, trimSpace_toString, if_neg (toString_ne_empty n),
    Text.atoi_toString hn, haccepts, if_true]

/-- **Every page is a page of one query.** -/
lemma parseMessagesQuery_page {lib : QueryLib} {r : MessagesRequest} {q : Logthing.Query}
    (hparse : parseMessagesQuery lib (r.page 1 0) = .ok q) {limit k : ℕ}
    (hlimit : 1 ≤ limit ∧ limit ≤ 2000) (hk : k * limit < 2 ^ 63) :
    parseMessagesQuery lib (r.page limit k)
      = .ok { q with limit := (limit : ℤ), offset := ((k * limit : ℕ) : ℤ) } := by
  have hnumbers : ∀ {limit k : ℕ}, 1 ≤ limit ∧ limit ≤ 2000 → k * limit < 2 ^ 63 →
      parseMessagesQuery lib (r.page limit k) = (do
        let since ← (parseOptionalTime lib r.since).mapError ("invalid since: " ++ ·)
        let until_ ← (parseOptionalTime lib r.until_).mapError ("invalid until: " ++ ·)
        return { text := r.q, hosts := cleanQueryValues r.host, limit := (limit : ℤ)
                 offset := ((k * limit : ℕ) : ℤ), since, until_ }) := by
    intro limit k hlimit hk
    have haccepts : (0 < (limit : ℤ) && (limit : ℤ) ≤ maxMessageLimit) = true := by
      rw [Bool.and_eq_true, decide_eq_true_eq, decide_eq_true_eq, maxMessageLimit]
      omega
    have hoffset : decide ((0 : ℤ) ≤ ((k * limit : ℕ) : ℤ)) = true := decide_eq_true (by omega)
    rw [parseMessagesQuery, MessagesRequest.page,
      parseQueryNumber_toString lib "limit" (by omega) defaultMessageLimit haccepts,
      parseQueryNumber_toString lib "offset" hk 0 hoffset]
    rfl
  rw [hnumbers ⟨le_rfl, by omega⟩ (by omega)] at hparse
  rw [hnumbers hlimit hk]
  cases hsince : (parseOptionalTime lib r.since).mapError ("invalid since: " ++ ·) with
  | error err =>
      rw [hsince] at hparse
      cases hparse
  | ok since =>
      cases huntil : (parseOptionalTime lib r.until_).mapError ("invalid until: " ++ ·) with
      | error err =>
          rw [hsince, huntil] at hparse
          cases hparse
      | ok until_ =>
          rw [hsince, huntil] at hparse
          rw [← Except.ok.inj hparse]
          rfl

section

variable {lib : QueryLib} {go : GoLib} {r : MessagesRequest} {q : Logthing.Query}
  {accepts : Message → Bool} {limit k : ℕ} {disk : Disk} {store : FileStore}
  (hframed : go.Framed) (hkey : go.KeyAgrees) (htrail : go.RejectsTrailing)
  (hlower : go.LowerKeepsBlank) (hparse : parseMessagesQuery lib (r.page 1 0) = .ok q)
  (hcompile : compileTextFilter go q.text = .ok accepts) (hlimit : 1 ≤ limit ∧ limit ≤ 2000)

include hframed hkey htrail hlower hparse hcompile hlimit

/-- **A page.**  It is cut from what matches now, and tells whether that goes on. -/
lemma handleMessages_page (htracks : CacheTracks go disk store)
    (hlines : ∀ path ∈ messageFiles disk, Indexable go (Lines.all newline (disk.data path)))
    (hk : k * limit < 2 ^ 63) :
    ∃ response store', handleMessages lib go store disk (r.page limit k) = (.ok response, store') ∧
      response.data = page limit k (listing go q accepts disk) ∧
      response.info.hasMore = decide ((k + 1) * limit < (listing go q accepts disk).length) ∧
      CacheTracks go disk store' := by
  let q' : Logthing.Query := { q with limit := (limit : ℤ) + 1, offset := ((k * limit : ℕ) : ℤ) }
  have hquery := query_of_indexable hframed hkey htrail hlower htracks hlines q' hcompile
    (fitsMemory_of_le (show (limit : ℤ) + 1 ≤ 10 ^ 12 by omega))
  have hnext := htracks.run hframed hkey htrail (.query q')
  have hcount : effectiveLimit ((limit : ℤ) + 1) = limit + 1 := by
    rw [effectiveLimit, if_neg (by omega)]
    omega
  have hnaive : naiveQuery go disk q' accepts
      = ((listing go q accepts disk).drop (k * limit)).take (limit + 1) := by
    rw [naiveQuery, hcount, Int.toNat_natCast]
    rfl
  rw [hnaive] at hquery
  simp only [handleMessages, parseMessagesQuery_page hparse hlimit hk]
  obtain ⟨result, store', heq⟩ : ∃ result store', Logthing.query go store disk q' = (result, store') :=
    ⟨_, _, rfl⟩
  rw [runCall, heq] at hnext
  rw [heq] at hquery
  rw [heq]
  simp only at hquery hnext
  subst hquery
  generalize listing go q accepts disk = l
  have hmore : ((limit : ℤ) < (((l.drop (k * limit)).take (limit + 1)).length : ℤ))
      ↔ (k + 1) * limit < l.length := by
    rw [List.length_take, List.length_drop, Nat.add_one_mul]
    omega
  refine ⟨_, store', rfl, ?_, decide_eq_decide.mpr hmore, hnext⟩
  show (if decide _ = true then _ else _) = page limit k l
  split_ifs with h
  · rw [Int.toNat_natCast, List.take_take, Nat.min_eq_left (Nat.le_succ limit)]
    rfl
  · rw [decide_eq_true_eq, hmore, Nat.add_one_mul] at h
    rw [page, List.take_of_length_le (by rw [List.length_drop]; omega),
      List.take_of_length_le (by rw [List.length_drop]; omega)]

end

/-! ## All pages -/

/-- The directory as the `k`-th page finds it. -/
def diskAt (go : GoLib) (calls : ℕ → List StoreCall) (disk : Disk) : ℕ → Disk
  | 0 => disk
  | k + 1 => (runCalls go (diskAt go calls disk k, FileStore.new) (calls k)).1

/-- Queries leave the directory as it is. -/
lemma diskAt_of_queries (go : GoLib) {calls : ℕ → List StoreCall}
    (hqueries : ∀ j, ∀ call ∈ calls j, ∃ q, call = .query q) (disk : Disk) (j : ℕ) :
    diskAt go calls disk j = disk := by
  have hround : ∀ (calls : List StoreCall), (∀ call ∈ calls, ∃ q, call = .query q) →
      ∀ state : Disk × FileStore, (runCalls go state calls).1 = state.1 := by
    intro calls hcalls
    induction calls with
    | nil => exact fun _ => rfl
    | cons call calls ih =>
        intro state
        obtain ⟨q, rfl⟩ := hcalls call List.mem_cons_self
        exact ih (fun c hc => hcalls c (List.mem_cons_of_mem _ hc)) _
  induction j with
  | zero => rfl
  | succ j ih => rw [diskAt, hround (calls j) (hqueries j), ih]

section

variable {lib : QueryLib} {go : GoLib} {r : MessagesRequest} {q : Logthing.Query}
  {accepts : Message → Bool} {limit : ℕ} {calls : ℕ → List StoreCall} {disk : Disk}
  (hframed : go.Framed) (hkey : go.KeyAgrees) (htrail : go.RejectsTrailing)
  (hlower : go.LowerKeepsBlank) (hparse : parseMessagesQuery lib (r.page 1 0) = .ok q)
  (hcompile : compileTextFilter go q.text = .ok accepts) (hlimit : 1 ≤ limit ∧ limit ≤ 2000)

include hframed hkey htrail hlower hparse hcompile hlimit

/-- **What a client reads** that gets to the last page, cut from what matched at each page. -/
lemma pages_of_readMessages {requests k : ℕ} {store : FileStore} {rows : List Message}
    (htracks : CacheTracks go (diskAt go calls disk k) store)
    (hclean : ∀ j < k + requests, (diskAt go calls disk j).Clean go)
    (hfits : ∀ j < k + requests, (listing go q accepts (diskAt go calls disk j)).length < 2 ^ 63)
    (hk : k * limit < 2 ^ 63)
    (hread : readMessages lib go r limit calls requests k (diskAt go calls disk k, store)
      = some rows) :
    ∃ n < requests,
      rows = pages limit (fun j => listing go q accepts (diskAt go calls disk j)) k (n + 1) ∧
        (listing go q accepts (diskAt go calls disk (k + n))).length ≤ (k + n + 1) * limit := by
  induction requests generalizing k store rows with
  | zero => cases hread
  | succ requests ih =>
      obtain ⟨response, store', hok, hdata, hmore, htracks'⟩ :=
        handleMessages_page hframed hkey htrail hlower hparse hcompile hlimit htracks
          (fun path hpath => (hclean k (by omega)).indexable hpath) hk
      rw [readMessages, hok] at hread
      simp only [hmore, decide_eq_true_eq] at hread
      split_ifs at hread with hnext
      · obtain ⟨rest, hrest, rfl⟩ := Option.map_eq_some_iff.mp hread
        have hstate : (runCalls go (diskAt go calls disk k, store') (calls k)).1
            = diskAt go calls disk (k + 1) := disk_runCalls go (calls k) _ _ _
        have hafter := htracks'.runCalls hframed hkey htrail (calls k)
        rw [hstate] at hafter
        obtain ⟨n, hn, hpages, hlast⟩ := ih (k := k + 1) hafter
          (fun j hj => hclean j (by omega)) (fun j hj => hfits j (by omega))
          (hnext.trans (hfits k (by omega))) (by rw [← hrest, ← hstate])
        refine ⟨n + 1, by omega, ?_, ?_⟩
        · rw [hdata, hpages, pages.eq_2 limit _ k (n + 1)]
        · rwa [← Nat.add_assoc, Nat.add_right_comm k n 1]
      · refine ⟨0, by omega, ?_, not_lt.mp hnext⟩
        rw [← Option.some.inj hread, hdata, pages, pages, List.append_nil]

/-- **A client gets to the last page** once all that is there fits into the pages. -/
lemma exists_readMessages (n : ℕ) : ∀ {k : ℕ} {store : FileStore},
    CacheTracks go (diskAt go calls disk k) store →
    (∀ j < k + n + 1, (diskAt go calls disk j).Clean go) →
    (∀ j < k + n + 1, (listing go q accepts (diskAt go calls disk j)).length < 2 ^ 63) →
    k * limit < 2 ^ 63 →
    (listing go q accepts (diskAt go calls disk (k + n))).length ≤ (k + n + 1) * limit →
    ∃ rows, readMessages lib go r limit calls (n + 1) k (diskAt go calls disk k, store)
      = some rows := by
  induction n with
  | zero =>
      intro k store htracks hclean _ hk hlast
      obtain ⟨response, store', hok, -, hmore, -⟩ :=
        handleMessages_page hframed hkey htrail hlower hparse hcompile hlimit htracks
          (fun path hpath => (hclean k (by omega)).indexable hpath) hk
      rw [Nat.add_zero] at hlast
      rw [decide_eq_false (not_lt.mpr hlast)] at hmore
      exact ⟨response.data, by simp [readMessages, hok, hmore]⟩
  | succ n ih =>
      intro k store htracks hclean hfits hk hlast
      obtain ⟨response, store', hok, -, hmore, htracks'⟩ :=
        handleMessages_page hframed hkey htrail hlower hparse hcompile hlimit htracks
          (fun path hpath => (hclean k (by omega)).indexable hpath) hk
      rw [readMessages, hok]
      simp only [hmore, decide_eq_true_eq]
      split_ifs with hnext
      · have hstate : (runCalls go (diskAt go calls disk k, store') (calls k)).1
            = diskAt go calls disk (k + 1) := disk_runCalls go (calls k) _ _ _
        have hafter := htracks'.runCalls hframed hkey htrail (calls k)
        rw [hstate] at hafter
        obtain ⟨rows, hrows⟩ := ih hafter (fun j hj => hclean j (by omega))
          (fun j hj => hfits j (by omega)) (hnext.trans (hfits k (by omega))) (by
            rwa [Nat.add_right_comm k 1 n, Nat.add_assoc k n 1])
        have heq : runCalls go (diskAt go calls disk k, store') (calls k)
            = (diskAt go calls disk (k + 1),
              (runCalls go (diskAt go calls disk k, store') (calls k)).2) := Prod.ext hstate rfl
        rw [heq, hrows]
        exact ⟨_, rfl⟩
      · exact ⟨_, rfl⟩

end

/-- **Pages of messages.**  Take any directory, a new `FileStore` on it and any appends and queries,
whatever fails among them, and a client that asks for page after page of what matches a filter,
while any appends and queries are made in between; every line decodes and is shorter than the
scanner's limit.  Where the client gets to a last page, it has been shown every message that matched
when it started, as often as it is stored and in order.  Where nothing is appended meanwhile, it
gets there and has been shown these messages and no others; and it gets there anyway once all that
is there at its last request fits into the pages it has asked for. -/
theorem messages_paged (lib : QueryLib) (go : GoLib) (hframed : go.Framed) (hkey : go.KeyAgrees)
    (htrail : go.RejectsTrailing) (hlower : go.LowerKeepsBlank) (initial : Disk)
    (before : List StoreCall) (r : MessagesRequest) (q : Logthing.Query) (accepts : Message → Bool)
    (hparse : parseMessagesQuery lib (r.page 1 0) = .ok q)
    (hcompile : compileTextFilter go q.text = .ok accepts) (limit : ℕ)
    (hlimit : 1 ≤ limit ∧ limit ≤ 2000) (calls : ℕ → List StoreCall) (requests : ℕ)
    (hclean : ∀ j < requests,
      (diskAt go calls (runCalls go (initial, FileStore.new) before).1 j).Clean go)
    (hfits : ∀ j < requests, (listing go q accepts
      (diskAt go calls (runCalls go (initial, FileStore.new) before).1 j)).length < 2 ^ 63) :
    let state := runCalls go (initial, FileStore.new) before
    (∀ rows, readMessages lib go r limit calls requests 0 state = some rows →
      (listing go q accepts state.1).Sublist rows) ∧
    (0 < requests →
      (listing go q accepts (diskAt go calls state.1 (requests - 1))).length ≤ requests * limit →
      ∃ rows, readMessages lib go r limit calls requests 0 state = some rows) ∧
    ((∀ j, ∀ call ∈ calls j, ∃ q, call = .query q) → 0 < requests →
      (listing go q accepts state.1).length ≤ requests * limit →
      readMessages lib go r limit calls requests 0 state
        = some (listing go q accepts state.1)) := by
  intro state
  have htracks : CacheTracks go state.1 state.2 :=
    (CacheTracks.new go initial).runCalls hframed hkey htrail before
  have hread : ∀ {rows}, readMessages lib go r limit calls requests 0 state = some rows →
      ∃ n < requests,
        rows = pages limit (fun j => listing go q accepts (diskAt go calls state.1 j)) 0 (n + 1) ∧
          (listing go q accepts (diskAt go calls state.1 n)).length ≤ (n + 1) * limit := by
    intro rows hrows
    have htracks₀ : CacheTracks go (diskAt go calls state.1 0) state.2 := htracks
    have hpages := pages_of_readMessages hframed hkey htrail hlower hparse hcompile hlimit
      htracks₀ (fun j hj => hclean j (by omega)) (fun j hj => hfits j (by omega)) (by omega) hrows
    simpa only [Nat.zero_add] using hpages
  have hreaches : 0 < requests →
      (listing go q accepts (diskAt go calls state.1 (requests - 1))).length ≤ requests * limit →
      ∃ rows, readMessages lib go r limit calls requests 0 state = some rows := by
    intro hsome hlength
    obtain ⟨n, rfl⟩ := Nat.exists_eq_succ_of_ne_zero hsome.ne'
    have htracks₀ : CacheTracks go (diskAt go calls state.1 0) state.2 := htracks
    exact exists_readMessages hframed hkey htrail hlower hparse hcompile hlimit n htracks₀
      (fun j hj => hclean j (by omega)) (fun j hj => hfits j (by omega)) (by omega)
      (by rw [Nat.zero_add]; exact hlength)
  refine ⟨fun rows hrows => ?_, hreaches, fun hqueries hsome hlength => ?_⟩
  · obtain ⟨n, hn, hpages, hlast⟩ := hread hrows
    rw [hpages]
    have hgrows : ∀ j < n, (listing go q accepts (diskAt go calls state.1 j)).Sublist
        (listing go q accepts (diskAt go calls state.1 (j + 1))) := by
      intro j hj
      have hgrown : Grown go (diskAt go calls state.1 j) (diskAt go calls state.1 (j + 1)) :=
        Grown.runCalls go (diskAt go calls state.1 j, FileStore.new) (calls j)
      refine ((hgrown.rows_sublist hframed hkey htrail (fun path hpath => ?_)
        fun path hpath => ?_).map _).filter _
      · exact ((hclean j (by omega)).indexable hpath).1
      · exact ((hclean (j + 1) (by omega)).indexable hpath).1
    exact sublist_pages hgrows hlast
  · have hquiet : ∀ j, diskAt go calls state.1 j = state.1 := diskAt_of_queries go hqueries state.1
    obtain ⟨rows, hrows⟩ := hreaches hsome (by rwa [hquiet])
    obtain ⟨m, -, hpages, hlast⟩ := hread hrows
    simp only [hquiet] at hpages hlast
    rw [pages_const, Nat.zero_mul, List.drop_zero, List.take_of_length_le hlast] at hpages
    rw [← hpages]
    exact hrows

/-- No layouts, and values as they are. -/
def sampleQueryLib : QueryLib := ⟨fun _ => .error "cannot parse", fun value => value⟩

/-- The listing of a directory with these partitions. -/
lemma listing_eq {go : GoLib} {disk : Disk} {paths : List String}
    (hfiles : messageFiles disk = paths) (q : Logthing.Query) (accepts : Message → Bool) :
    listing go q accepts disk = (messagesOf go disk paths).filter (wanted q accepts) := by
  rw [listing, storedRows_messages hfiles]

/-- One more message comes in after the first page, and others ask for pages of their own. -/
def hostGrowth (k : ℕ) : List StoreCall :=
  if k = 0 then [.append 9000000000 .none (hostMessage "five" "nas" "wan up" 3), .query {}]
  else [.query { limit := 1 }]

/-- The directory then. -/
def grownDisk : Disk := diskAt (.ofLines hostTable) hostGrowth hostState.1 1

lemma diskAt_hostGrowth (k : ℕ) :
    diskAt (.ofLines hostTable) hostGrowth hostState.1 (k + 1) = grownDisk := by
  induction k with
  | zero => rfl
  | succ k ih =>
      rw [diskAt, ih]
      generalize grownDisk = disk
      rfl

/-- What the partitions hold of `wan`. -/
lemma grownDisk_reads :
    ((messagesOf (.ofLines hostTable) hostState.1 hostPaths).filter
      (wanted { text := "wan", limit := 1 } wanFilter)).map Message.id
        = ["five", "four", "two", "three", "one"] ∧
    grownDisk.reads (.ofLines hostTable) hostPaths = true ∧
    ((messagesOf (.ofLines hostTable) grownDisk hostPaths).filter
      (wanted { text := "wan", limit := 1 } wanFilter)).length = 6 := by
  decide +kernel

lemma clean_grownDisk : grownDisk.Clean (.ofLines hostTable) :=
  lines_of_reads hostPaths_sorted grownDisk_reads.2.1

lemma ids_hostState :
    (listing (.ofLines hostTable) { text := "wan", limit := 1 } wanFilter hostState.1).map
      Message.id = ["five", "four", "two", "three", "one"] := by
  rw [listing_eq (messageFiles_of_reads hostPaths_sorted hostState_reads.1)]
  exact grownDisk_reads.1

lemma length_grownDisk :
    (listing (.ofLines hostTable) { text := "wan", limit := 1 } wanFilter grownDisk).length = 6 := by
  rw [listing_eq (messageFiles_of_reads hostPaths_sorted grownDisk_reads.2.1)]
  exact grownDisk_reads.2.2

/-- What is asked for. -/
def wanRequest : MessagesRequest := { q := "wan" }

/-- Three partitions, read in pages of two: in three pages where nothing comes in, and with one more
message in between. -/
theorem messages_paged_hostState :
    (readMessages sampleQueryLib (.ofLines hostTable) wanRequest 2 (fun _ => [.query { limit := 1 }])
        3 0 hostState).map (List.map Message.id) = some ["five", "four", "two", "three", "one"] ∧
      ∃ rows, readMessages sampleQueryLib (.ofLines hostTable) wanRequest 2 hostGrowth 3 0 hostState
          = some rows ∧ ["five", "four", "two", "three", "one"].Sublist (rows.map Message.id) := by
  have hpaged := fun calls => messages_paged sampleQueryLib (.ofLines hostTable)
    hostTable_framed ofLines_keyAgrees ofLines_rejectsTrailing
    ofLines_lowerKeepsBlank Disk.empty hostCalls wanRequest { text := "wan", limit := 1 } wanFilter rfl
    compile_wan 2 ⟨by decide, by decide⟩ calls 3
  have hlength : (listing (.ofLines hostTable) { text := "wan", limit := 1 } wanFilter
      hostState.1).length = 5 := by
    rw [← List.length_map Message.id, ids_hostState]
    rfl
  constructor
  · have hqueries : ∀ j, ∀ call ∈ (fun _ => [StoreCall.query { limit := 1 }] : ℕ → List StoreCall) j,
        ∃ q, call = .query q := fun _ call hcall => ⟨_, List.mem_singleton.mp hcall⟩
    have hquiet := diskAt_of_queries (.ofLines hostTable) hqueries hostState.1
    have hread := (hpaged (fun _ => [.query { limit := 1 }])
      (fun j _ => (hquiet j).symm ▸ hostState_lines)
      (fun j _ => by rw [show runCalls _ _ _ = hostState from rfl, hquiet, hlength]; decide)).2.2
      hqueries (by decide) (hlength.le.trans (by decide))
    rw [show readMessages _ _ _ _ _ _ _ hostState = _ from hread, Option.map_some]
    exact congrArg some ids_hostState
  · have hclean : ∀ j, (diskAt (.ofLines hostTable) hostGrowth hostState.1 j).Clean
        (.ofLines hostTable) := fun j => by
      cases j with
      | zero => exact hostState_lines
      | succ j => exact (diskAt_hostGrowth j).symm ▸ clean_grownDisk
    have hgrown : ∀ j, (listing (.ofLines hostTable) { text := "wan", limit := 1 } wanFilter
        (diskAt (.ofLines hostTable) hostGrowth hostState.1 j)).length ≤ 6 := fun j => by
      cases j with
      | zero => exact hlength.le.trans (by decide)
      | succ j => rw [diskAt_hostGrowth, length_grownDisk]
    obtain ⟨hshown, hreaches, -⟩ := hpaged hostGrowth (fun j _ => hclean j)
      fun j _ => (hgrown j).trans_lt (by decide)
    obtain ⟨rows, hrows⟩ := hreaches (by decide) (hgrown 2)
    exact ⟨rows, hrows, ids_hostState ▸ (hshown rows hrows).map Message.id⟩

end Logthing.Api
