import Spoo.Services.Safety.Investigation
import Spoo.Services.UrlService.Dispatch

/-!
# ReportIntakeService (`services/report_intake_service.py`)

What a submission makes of the links it reports, and the analyses it asks for. The storage of the reports,
the audit record and the notification are left out.
-/

namespace Spoo

/-- `ReportItemRequest`: what the intake reads of it. -/
structure ReportItemRequest where
  codeOrUrl : String
  deriving DecidableEq, Repr

/-- `RejectionCode`. -/
inductive RejectionCode where
  | invalidInput
  | notFound
  | duplicateInBatch
  deriving DecidableEq, Repr

/-- `RejectedItem`. -/
structure RejectedItem where
  index : Nat
  input : String
  code : RejectionCode
  deriving DecidableEq, Repr

/-- A domain, none for the system one, and a code on it. -/
abbrev ReportTarget : Type := Option String × String

/-- An accepted report: its target, the item, and every destination of the link. -/
structure AcceptedItem where
  target : ReportTarget
  item : ReportItemRequest
  destinations : List String
  deriving DecidableEq, Repr

/-- What a deployment fixes for the intake. -/
structure IntakeConfig where
  dispatch : DispatchConfig
  url : UrlLib
  text : UrlSplit.TextLib

namespace ReportIntake

variable (cfg : IntakeConfig) (s : Stores)

/-- `text.strip(c)`. -/
def stripChar (c : Char) (text : List Char) : List Char :=
  ((text.dropWhile (· = c)).reverse.dropWhile (· = c)).reverse

/-- The text that is parsed as a URL. -/
def candidate (value : String) : List Char :=
  if "://".toList <:+: value.toList then value.toList else "https://".toList ++ value.toList

/-- What is made of the parts of a URL. -/
def targetOf (parsed : UrlSplit.Parts) : Option ReportTarget :=
  if parsed.scheme ≠ some "http".toList ∧ parsed.scheme ≠ some "https".toList then none
  else
    let hostname := rstripDots (String.ofList (cfg.text.lower ((parsed.hostname cfg.text).getD [])))
    if hostname = "" then none
    else
      let path := stripChar '/' parsed.parsedPath
      if path = [] ∨ '/' ∈ path then none
      else
        let code := cfg.dispatch.lib.unquote (String.ofList path)
        let system := cfg.dispatch.systemDefaultDomain
        if hostname = system ∨ hostname = "www." ++ system then some (none, code)
        else some (some hostname, code)

/-- `normalize_report_target`: the outer `none` is a `ValueError` (`report_intake_service.py:59-101`). -/
def normalizeReportTarget (raw : String) : Option (Option ReportTarget) :=
  let value := pyStrip raw
  if value = "" then some none
  else if '/' ∉ value.toList then some (some (none, cfg.dispatch.lib.unquote value))
  else (UrlSplit.urlsplit cfg.text (candidate value)).map (targetOf cfg)

/-- The link a target names. -/
def selectTarget (target : ReportTarget) : Option SelectedLink :=
  match target.1 with
  | none => PublicLinkResolver.resolve cfg.dispatch s target.2
  | some domain => (UrlRepository.findByAlias s.urls target.2 domain).map .v2

/-- The destinations of a link: the raw document of a legacy one has its URL alone. -/
def destinationsOf : SelectedLink → List String
  | .v2 doc =>
    linkDestinationUrls (some doc.longUrl) doc.geoRules (some (variantUrls doc.abVariants)) doc.preStartUrl
      doc.expiredRedirectUrl
  | .v1 row => linkDestinationUrls (some row.url) none none none none
  | .emoji row => linkDestinationUrls (some row.url) none none none none

/-- `_resolve_destinations` (`report_intake_service.py:321-345`). -/
def resolveDestinations (target : ReportTarget) : Option (List String) :=
  (selectTarget cfg s target).map destinationsOf

/-- The local variables of `_triage`. -/
structure Triage where
  seen : List ReportTarget := []
  accepted : List AcceptedItem := []
  rejected : List RejectedItem := []
  deriving DecidableEq

/-- `rejected.append(RejectedItem(index, item.code_or_url, code))`. -/
def Triage.reject (t : Triage) (index : Nat) (item : ReportItemRequest) (code : RejectionCode) : Triage :=
  { t with rejected := t.rejected ++ [⟨index, item.codeOrUrl, code⟩] }

/-- One turn of the loop of `_triage`. -/
def triageItem (t : Triage) (entry : ReportItemRequest × Nat) : Option Triage :=
  let (item, index) := entry
  match normalizeReportTarget cfg item.codeOrUrl with
  | none => none
  | some none => some (t.reject index item .invalidInput)
  | some (some target) =>
    if target ∈ t.seen then some (t.reject index item .duplicateInBatch)
    else
      let t := { t with seen := t.seen ++ [target] }
      match resolveDestinations cfg s target with
      | some destinations => some { t with accepted := t.accepted ++ [⟨target, item, destinations⟩] }
      | none => some (t.reject index item .notFound)

/-- `_triage`: `none` is a `ValueError` (`report_intake_service.py:279-319`). -/
def triage (items : List ReportItemRequest) : Option Triage := items.zipIdx.foldlM (triageItem cfg s) {}

/-- `f"{domain or self._system_default_domain}/{code}"`. -/
def reportedText (target : ReportTarget) : String :=
  target.1.getD cfg.dispatch.systemDefaultDomain ++ "/" ++ target.2

/-- What a destination of a reported link adds to the analyses (`report_intake_service.py:357-394`). -/
def addDestination (reported : String) (byHost : PyDict String SafetyAnalyzeEvent) (url : String) :
    PyDict String SafetyAnalyzeEvent :=
  match parseDestination cfg.url url with
  | none => byHost
  | some parts =>
    match byHost.get? parts.host with
    | some existing =>
      let codes := existing.context.reportedCodes
      let codes := if reported ∈ codes then codes else codes ++ [reported]
      byHost.assign parts.host { existing with context := { existing.context with reportedCodes := codes } }
    | none =>
      byHost.assign parts.host {
        url, host := parts.host, registrableDomain := parts.registrableDomain, trigger := "report"
        context := { reportedCodes := [reported] } }

/-- What an accepted report adds. -/
def addReport (byHost : PyDict String SafetyAnalyzeEvent) (entry : AcceptedItem) :
    PyDict String SafetyAnalyzeEvent :=
  entry.destinations.foldl (addDestination cfg (reportedText cfg entry.target)) byHost

/-- `_enqueue_safety_analysis`: one event for each host (`report_intake_service.py:347-396`). -/
def safetyEvents (accepted : List AcceptedItem) : List SafetyAnalyzeEvent :=
  (accepted.foldl (addReport cfg) PyDict.empty).values

/-- A deployment where all text is ASCII. -/
def plainIntake : IntakeConfig where
  dispatch := ⟨plainEmojiLib, "spoo.me"⟩
  url := asciiUrlLib
  text := UrlSplit.asciiText

end ReportIntake

end Spoo
