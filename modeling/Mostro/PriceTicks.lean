import Mathlib.Algebra.Order.Group.Abs
import Mathlib.Algebra.Order.Ring.Rat
import Mathlib.Data.List.Flatten
import Mathlib.Data.List.Sort

set_option autoImplicit false

/-!
The price feed: one tick polls the enabled providers, combines their quotes per currency and stores
the result; a read serves a stored price while it is young enough.  Prices are exact rationals.
-/

namespace Mostro.Prices

abbrev Code := String
abbrev Seconds := Int

/-- The order of the constructors is the order `dedup_sort` lists contributors in. -/
inductive ProviderId where
  | yadio
  | coinGecko
  | currencyApi
  | blockchain
  | elToque
  | nostr
  deriving DecidableEq, Repr

def ProviderId.all : List ProviderId :=
  [.yadio,.coinGecko,.currencyApi,.blockchain,.elToque,.nostr]

theorem ProviderId.mem_all (id : ProviderId) : id ∈ ProviderId.all := by
  cases id <;> decide

inductive Quote where
  | perBtc (value : ℚ)
  | perBase (base : Code) (value : ℚ)
  deriving DecidableEq, Repr

/-- The source's hash map, listed: no code occurs twice. -/
abbrev ProviderQuotes := List (Code × Quote)

abbrev ProviderResults := List (ProviderId × ProviderQuotes)

def medianSorted (sorted : List ℚ) : ℚ :=
  let n := sorted.length
  if n % 2 = 1 then sorted.getD (n / 2) 0
  else (sorted.getD (n / 2 - 1) 0 + sorted.getD (n / 2) 0) / 2

def mean (xs : List ℚ) : ℚ := xs.sum / xs.length

def usable (x : ℚ) : Bool := 0 < x

def cleanSorted (xs : List ℚ) : List ℚ := (xs.filter usable).insertionSort (· ≤ ·)

def insideBand (median outlierPct x : ℚ) : Bool := |x - median| ≤ median * (outlierPct / 100)

def combine (xs : List ℚ) (outlierPct : ℚ) : Option ℚ :=
  let clean := cleanSorted xs
  match clean.length with
  | 0 => none
  | 1 => some (clean.getD 0 0)
  | 2 => some (mean clean)
  | _ =>
    let m := medianSorted clean
    let kept := clean.filter (insideBand m outlierPct)
    if kept.isEmpty then some m else some (mean kept)

def dedupSort (ids : List ProviderId) : List ProviderId :=
  ProviderId.all.filter (ids.contains ·)

def keptContributors (pairs : List (ProviderId × ℚ)) (outlierPct : ℚ) : List ProviderId :=
  let clean := pairs.filter (usable ·.2)
  if clean.length ≤ 2 then dedupSort (clean.map (·.1))
  else
    let m := medianSorted (cleanSorted (pairs.map (·.2)))
    let kept := (clean.filter (insideBand m outlierPct ·.2)).map (·.1)
    if kept.isEmpty then dedupSort (clean.map (·.1)) else dedupSort kept

/-- The direct quotes of a currency, each with the provider it comes from. -/
def direct (results : ProviderResults) (currency : Code) : List (ProviderId × ℚ) :=
  results.flatMap fun r => r.2.filterMap fun q =>
    match q.2 with
    | .perBtc v => if q.1.toUpper = currency then some (r.1,v) else none
    | .perBase _ _ => none

def perBase (results : ProviderResults) (currency : Code) : List (ProviderId × Code × ℚ) :=
  results.flatMap fun r => r.2.filterMap fun q =>
    match q.2 with
    | .perBtc _ => none
    | .perBase base v => if q.1.toUpper = currency then some (r.1,base.toUpper,v) else none

def anchor (results : ProviderResults) (outlierPct : ℚ) (base : Code) : Option ℚ :=
  combine ((direct results base).map (·.2)) outlierPct

def anchorUsesNostr (results : ProviderResults) (outlierPct : ℚ) (base : Code) : Bool :=
  (keptContributors (direct results base) outlierPct).contains .nostr

def resolvePerBase (results : ProviderResults) (outlierPct : ℚ) (q : ProviderId × Code × ℚ) :
    Option (ProviderId × ℚ) :=
  (anchor results outlierPct q.2.1).bind fun a =>
    if usable (q.2.2 * a) then some (q.1,q.2.2 * a) else none

def resolved (results : ProviderResults) (outlierPct : ℚ) (currency : Code) :
    List (ProviderId × ℚ) :=
  (perBase results currency).filterMap (resolvePerBase results outlierPct)

def nostrAnchoredResolvers (results : ProviderResults) (outlierPct : ℚ) (currency : Code) :
    List ProviderId :=
  ((perBase results currency).filter fun q =>
    (resolvePerBase results outlierPct q).isSome &&
      anchorUsesNostr results outlierPct q.2.1).map (·.1)

structure AggregateResult where
  value : ℚ
  sources : Nat
  contributors : List ProviderId
  nostrAnchorDependent : Bool
  deriving DecidableEq, Repr

def candidates (results : ProviderResults) (outlierPct : ℚ) (currency : Code) :
    List (ProviderId × ℚ) :=
  direct results currency ++ resolved results outlierPct currency

def aggregateTick (results : ProviderResults) (outlierPct : ℚ) (currency : Code) :
    Option AggregateResult :=
  let pairs := candidates results outlierPct currency
  (combine (pairs.map (·.2)) outlierPct).map fun value =>
    let contributors := keptContributors pairs outlierPct
    { value
      sources := min ((pairs.filter (usable ·.2)).length) 255
      contributors
      nostrAnchorDependent :=
        contributors.any ((nostrAnchoredResolvers results outlierPct currency).contains ·) }

def coveredByNonNostr (results : ProviderResults) (outlierPct : ℚ) (currency : Code) : Bool :=
  results.any fun r => r.1 != .nostr && r.2.any fun q =>
    q.1.toUpper == currency &&
      match q.2 with
      | .perBtc v => usable v
      | .perBase base v =>
        match anchor results outlierPct base.toUpper with
        | some a => usable (v * a)
        | none => false

def restrictNostrToFallback (results : ProviderResults) (outlierPct : ℚ) : ProviderResults :=
  results.map fun r =>
    if r.1 != .nostr then r
    else (r.1,r.2.filter fun q => !coveredByNonNostr results outlierPct q.1.toUpper)

def republishableRates (aggregates : Code → Option AggregateResult) (currency : Code) : Option ℚ :=
  ((aggregates currency).filter fun a =>
    a.contributors != [.nostr] && !a.nostrAnchorDependent).map (·.value)

/-! ### Rate events -/

/-- `content` is the `BTC` table of the body, none when the body does not parse. -/
structure RateEvent where
  pubkey : Nat
  kind : Nat
  identifier : Option String
  createdAt : Seconds
  expiration : Option Seconds := none
  content : Option (List (Code × ℚ))
  deriving DecidableEq, Repr

def exchangeRatesEventKind : Nat := 30078

def RateEvent.isExpiredAt (e : RateEvent) (now : Seconds) : Bool :=
  match e.expiration with
  | some t => t < now
  | none => false

def RateEvent.isCandidate (e : RateEvent) (trusted : List Nat) (now maxAge : Seconds) : Bool :=
  trusted.contains e.pubkey && e.kind == exchangeRatesEventKind &&
    e.identifier == some "mostro-rates" && e.createdAt ≤ now && now - e.createdAt ≤ maxAge &&
    !e.isExpiredAt now

def rankCandidates (events : List RateEvent) (trusted : List Nat) (now maxAge : Seconds) :
    List RateEvent :=
  (events.filter (·.isCandidate trusted now maxAge)).insertionSort (·.createdAt ≥ ·.createdAt)

def parseContent (table : List (Code × ℚ)) : ProviderQuotes :=
  (table.filter (usable ·.2)).foldl
    (fun quotes r => (r.1.toUpper,.perBtc r.2) :: quotes.filter (·.1 != r.1.toUpper)) []

def RateEvent.quotes (e : RateEvent) : ProviderQuotes := (e.content.map parseContent).getD []

def pickFirstUsable (ranked : List RateEvent) : Option RateEvent :=
  ranked.find? fun e => !e.quotes.isEmpty

/-! ### The manager -/

structure ProviderConfig where
  id : ProviderId
  only : Option (List Code) := none
  except : Option (List Code) := none
  deriving DecidableEq, Repr

def ProviderConfig.allowsCurrency (cfg : ProviderConfig) (currency : Code) : Bool :=
  match cfg.only, cfg.except with
  | some only, _ => only.any fun x => x.toUpper == currency.toUpper
  | none, some except => !except.any fun x => x.toUpper == currency.toUpper
  | none, none => true

/-- `providers` are the enabled ones, in the order they are polled. -/
structure PriceSettings where
  maxPriceStalenessSeconds : Seconds := 1800
  outlierThresholdPct : ℚ := 5
  providerFailureThreshold : Nat := 3
  providerFailureCooldownSeconds : Nat := 120
  publishToNostr : Bool := true
  providers : List ProviderConfig
  trustedNodes : List Nat := []
  deriving DecidableEq, Repr

def providerCooldownCapSeconds : Nat := 1800

structure ProviderHealth where
  consecutiveFailures : Nat := 0
  openUntil : Option Seconds := none
  deriving DecidableEq, Repr

def ProviderHealth.isAvailable (h : ProviderHealth) (now : Seconds) : Bool :=
  match h.openUntil with
  | some t => t ≤ now
  | none => true

/-- The greatest values of the machine integers the breaker computes with. -/
def u32Max : Nat := 2 ^ 32 - 1
def u64Max : Nat := 2 ^ 64 - 1
def i64Max : Nat := 2 ^ 63 - 1

def saturatingAdd (a b : Int) : Int := max (-2 ^ 63) (min (a + b) i64Max)

/-- The cooldown after `overBy` failures beyond the threshold. -/
def cooldownSecs (baseCooldown cooldownCap overBy : Nat) : Nat :=
  let factor := 2 ^ min overBy 63
  min (min (min (baseCooldown * factor) u64Max) cooldownCap) i64Max

def ProviderHealth.recordFailure (h : ProviderHealth) (now : Seconds)
    (failureThreshold baseCooldown cooldownCap : Nat) : ProviderHealth :=
  let failures := min (h.consecutiveFailures + 1) u32Max
  if failures < max failureThreshold 1 then { h with consecutiveFailures := failures }
  else
    let overBy := failures - max failureThreshold 1
    { consecutiveFailures := failures
      openUntil := some (saturatingAdd now (cooldownSecs baseCooldown cooldownCap overBy)) }

structure AggregatedPrice where
  value : ℚ
  asOf : Seconds
  sourceCount : Nat
  deriving DecidableEq, Repr

structure PriceManager where
  health : ProviderId → ProviderHealth := fun _ => {}
  store : Code → Option AggregatedPrice := fun _ => none

/-- What the world gives one tick: the clock where the tick reads it, the answer of every provider
other than Nostr (none is a failure or a timeout), and the events the relays send. -/
structure TickInput where
  startedAt : Seconds
  rankedAt : Seconds
  failedAt : Seconds
  storedAt : Seconds
  quotes : ProviderId → Option ProviderQuotes := fun _ => none
  events : Option (List RateEvent) := none

def knownFiat : List Code := [
  "AED","AFN","ALL","AMD","ANG","AOA","ARS","AUD","AWG","AZN","BAM","BBD","BDT",
  "BGN","BHD","BIF","BMD","BND","BOB","BRL","BSD","BTN","BWP","BYN","BZD","CAD",
  "CDF","CHF","CLP","CNY","COP","CRC","CUP","CVE","CZK","DJF","DKK","DOP","DZD",
  "EGP","ERN","ETB","EUR","FJD","FKP","GBP","GEL","GGP","GHS","GIP","GMD","GNF",
  "GTQ","GYD","HKD","HNL","HTG","HUF","IDR","ILS","IMP","INR","IQD","IRR","IRT",
  "ISK","JEP","JMD","JOD","JPY","KES","KGS","KHR","KMF","KPW","KRW","KWD","KYD",
  "KZT","LAK","LBP","LKR","LRD","LSL","LYD","MAD","MDL","MGA","MKD","MLC","MMK",
  "MNT","MOP","MRU","MUR","MVR","MWK","MXN","MYR","MZN","NAD","NGN","NIO","NOK",
  "NPR","NZD","OMR","PAB","PEN","PGK","PHP","PKR","PLN","PYG","QAR","RON","RSD",
  "RUB","RWF","SAR","SBD","SCR","SDG","SEK","SGD","SHP","SLE","SOS","SRD","SSP",
  "STN","SVC","SYP","SZL","THB","TJS","TMT","TND","TOP","TRY","TTD","TWD","TZS",
  "UAH","UGX","USD","UYU","UZS","VES","VND","VUV","WST","XAF","XCD","XCG","XOF",
  "XPF","YER","ZAR","ZMW","ZWL"]

def isKnownFiat (code : Code) : Bool := knownFiat.contains code.toUpper

def relayedEvent (settings : PriceSettings) (input : TickInput) : Option RateEvent :=
  input.events.bind fun events =>
    pickFirstUsable (rankCandidates events settings.trustedNodes input.rankedAt
      (max settings.maxPriceStalenessSeconds 1))

def fetch (settings : PriceSettings) (input : TickInput) : ProviderId → Option ProviderQuotes
  | .nostr => (relayedEvent settings input).map (·.quotes)
  | id => input.quotes id

def pollable (settings : PriceSettings) (m : PriceManager) (input : TickInput) :
    List ProviderConfig :=
  settings.providers.filter fun p => (m.health p.id).isAvailable input.startedAt

def scopeQuotes (cfg : ProviderConfig) (quotes : ProviderQuotes) : ProviderQuotes :=
  quotes.filter fun q => isKnownFiat q.1 && cfg.allowsCurrency q.1

def filteredQuotes (settings : PriceSettings) (m : PriceManager) (input : TickInput) :
    ProviderResults :=
  (pollable settings m input).filterMap fun p =>
    (fetch settings input p.id).map fun quotes => (p.id,scopeQuotes p quotes)

def tickResults (settings : PriceSettings) (m : PriceManager) (input : TickInput) :
    ProviderResults :=
  restrictNostrToFallback (filteredQuotes settings m input) settings.outlierThresholdPct

def aggregates (settings : PriceSettings) (m : PriceManager) (input : TickInput) :
    Code → Option AggregateResult :=
  aggregateTick (tickResults settings m input) settings.outlierThresholdPct

def recordOutcome (settings : PriceSettings) (input : TickInput) (polled : List ProviderConfig)
    (health : ProviderId → ProviderHealth) (id : ProviderId) : ProviderHealth :=
  if polled.any (·.id == id) then
    if (fetch settings input id).isSome then {}
    else (health id).recordFailure input.failedAt settings.providerFailureThreshold
      settings.providerFailureCooldownSeconds providerCooldownCapSeconds
  else health id

def updateAll (settings : PriceSettings) (m : PriceManager) (input : TickInput) : PriceManager :=
  let fresh := aggregates settings m input
  { health := recordOutcome settings input (pollable settings m input) m.health
    store := fun c =>
      match fresh c with
      | some agg => some ⟨agg.value,input.storedAt,agg.sources⟩
      | none => m.store c }

def publishedRate (settings : PriceSettings) (m : PriceManager) (input : TickInput)
    (currency : Code) : Option ℚ :=
  if settings.publishToNostr then republishableRates (aggregates settings m input) currency
  else none

inductive PriceError where
  | noCurrency
  | tooStale
  deriving DecidableEq, Repr

def getPrice (settings : PriceSettings) (m : PriceManager) (currency : Code) (now : Seconds) :
    Except PriceError ℚ :=
  match m.store currency.toUpper with
  | none => .error .noCurrency
  | some entry =>
    if now - entry.asOf ≤ settings.maxPriceStalenessSeconds then .ok entry.value
    else .error .tooStale

def afterTicks (settings : PriceSettings) (ticks : List TickInput) : PriceManager :=
  ticks.foldl (updateAll settings) {}

/-- The providers whose quotes a currency's price is computed from: those that quote it, and those
that quote the base of a cross quote for it. -/
def feeders (results : ProviderResults) (currency : Code) : List ProviderId :=
  (direct results currency).map (·.1) ++
    (perBase results currency).flatMap fun q => q.1 :: (direct results q.2.1).map (·.1)

theorem flatMap_filter_of_nil {α β : Type} {f : α → List β} {keep : α → Bool} {l : List α}
    (h : ∀ a ∈ l, keep a = false → f a = []) : (l.filter keep).flatMap f = l.flatMap f := by
  induction l with
  | nil => rfl
  | cons a l ih =>
    have hl := ih fun b hb => h b (List.mem_cons_of_mem _ hb)
    cases ha : keep a with
    | true => simp [ha,hl]
    | false => simp [ha,hl,h a List.mem_cons_self ha]

theorem perBase_filter {results : ProviderResults} {currency : Code} {keep : ProviderId → Bool}
    (h : ∀ q ∈ perBase results currency, keep q.1 = true) :
    perBase (results.filter (keep ·.1)) currency = perBase results currency := by
  refine flatMap_filter_of_nil fun r hr hdrop => List.eq_nil_iff_forall_not_mem.2 fun p hp => ?_
  have hid : p.1 = r.1 := by
    obtain ⟨q,-,hq⟩ := List.mem_filterMap.1 hp
    split at hq <;> grind
  have hkeep := h p (List.mem_flatMap.2 ⟨r,hr,hp⟩)
  simp_all

end Mostro.Prices
