/-
A contract as data: what it stores, which events it emits, which messages it
answers, and which structures it exchanges. It is built for the first template
model, request and response of a classification; without a template model it
stores only its owner and whether it is paused, and without a request and a
response it processes none.
-/
import Covenant.Classification

namespace Covenant

/-! ## Parts -/

/-- A stored field; one that comes from a property names it. -/
structure StorageField where
  name : String
  type : String
  source? : Option String := none
deriving DecidableEq, Repr

structure EventField where
  name : String
  type : String
  isTopic : Bool := false
deriving DecidableEq, Repr

structure EventDef where
  name : String
  fields : List EventField
  description : String
deriving DecidableEq, Repr

/-- A message: its parameters and result, whether it changes the contract, and whether it is
refused to others than the owner and while the contract is paused. -/
structure Message where
  name : String
  params : List (String × String) := []
  returns : String := "()"
  mutates : Bool := false
  ownerOnly : Bool := false
  requiresActive : Bool := false
  description : String := ""
deriving DecidableEq, Repr

/-- A structure that the contract exchanges or stores. -/
structure DataStructure where
  name : String
  fields : List StorageField
  derivesDefault : Bool := false
deriving DecidableEq, Repr

/-- The errors that the messages of a contract return. -/
inductive ContractError where
  | unauthorized | contractPaused | invalidInput | processingFailed
deriving DecidableEq, Repr

def ContractError.text : ContractError → String
  | unauthorized => "Unauthorized"
  | contractPaused => "ContractPaused"
  | invalidInput => "InvalidInput"
  | processingFailed => "ProcessingFailed"

def ContractError.all : List ContractError :=
  [unauthorized, contractPaused, invalidInput, processingFailed]

/-- A contract, ready to be rendered. -/
structure Contract where
  name : String
  moduleName : String
  packageName : String
  templateModel? : Option Classified
  request? : Option Classified
  response? : Option Classified
  storage : List StorageField
  events : List EventDef
  messages : List Message
  errors : List ContractError
  structures : List DataStructure
  templateModels : List Classified
deriving DecidableEq, Repr

/-! ## Storage -/

/-- The properties of a template model that describe the clause and not its terms. -/
def metadataProperties : List String := ["$class", "$timestamp", "clauseId", "$identifier"]

/-- The properties that are never exchanged. -/
def transientProperties : List String := ["$class", "$timestamp"]

/-- The fields of all properties but the excluded ones. -/
def fieldsOf (excluded : List String) (properties : List DerivedProperty) : List StorageField :=
  (properties.filter fun p => !excluded.contains p.name).map fun p =>
    ⟨p.fieldName, p.targetType, some p.name⟩

/-- The terms of a template model as fields. -/
def domainFields (templateModel? : Option Classified) : List StorageField :=
  match templateModel? with
  | some template => fieldsOf metadataProperties template.properties
  | none => []

def storageFields (templateModel? : Option Classified) : List StorageField :=
  { name := "owner", type := "AccountId" } :: { name := "paused", type := "bool" }
    :: domainFields templateModel?

/-! ## Events and messages -/

/-- The request and the response of a contract that has both. -/
def exchange? (c : Classification) : Option (Classified × Classified) :=
  match c.primaryRequest?, c.primaryResponse? with
  | some request, some response => some (request, response)
  | _, _ => none

def exchangeEvents (request response : Classified) : List EventDef :=
  [{ name := request.name ++ "Submitted"
     fields := [⟨"submitter", "AccountId", true⟩, ⟨"request_id", "u64", true⟩]
     description := "Emitted when a request is submitted" },
   { name := response.name ++ "Generated"
     fields := [⟨"request_id", "u64", true⟩, ⟨"success", "bool", false⟩]
     description := "Emitted when a response is generated" }]

def contractEvents (exchange? : Option (Classified × Classified)) : List EventDef :=
  [{ name := "ContractCreated"
     fields := [⟨"owner", "AccountId", true⟩]
     description := "Emitted when contract is created" },
   { name := "ContractPaused"
     fields := [⟨"by", "AccountId", true⟩]
     description := "Emitted when contract is paused" },
   { name := "ContractUnpaused"
     fields := [⟨"by", "AccountId", true⟩]
     description := "Emitted when contract is unpaused" }]
    ++ match exchange? with
      | some (request, response) => exchangeEvents request response
      | none => []

/-- The messages that every contract answers. -/
def controlMessages : List Message :=
  [{ name := "get_owner", returns := "AccountId", description := "Returns the contract owner" },
   { name := "is_paused", returns := "bool"
     description := "Returns whether the contract is paused" },
   { name := "pause", returns := "Result<()>", mutates := true, ownerOnly := true
     description := "Pause the contract (owner only)" },
   { name := "unpause", returns := "Result<()>", mutates := true, ownerOnly := true
     description := "Unpause the contract (owner only)" }]

def processingMessage (request response : Classified) : Message :=
  { name := "process_request"
    params := [("request", request.name)]
    returns := "Result<" ++ response.name ++ ">"
    mutates := true
    requiresActive := true
    description := "Process a contract request" }

/-- The message that returns a stored field. -/
def getterName (field : StorageField) : String :=
  "get_" ++ Target.unmarked field.name

def getterMessage (field : StorageField) : Message :=
  { name := getterName field
    returns := field.type
    description := "Get " ++ field.source?.getD "" }

def contractMessages (exchange? : Option (Classified × Classified))
    (domain : List StorageField) : List Message :=
  controlMessages
    ++ (match exchange? with
      | some (request, response) => [processingMessage request response]
      | none => [])
    ++ domain.map getterMessage

/-! ## Structures -/

/-- The concepts that get a structure in the contract if they have fields. -/
def contractConcepts : List String := ["Penalty", "MonetaryAmount", "Period", "Duration"]

/-- The first declaration of each name that is not taken. -/
def firstOfEachName (taken : List String) : List Classified → List Classified
  | [] => []
  | d :: rest =>
    if d.name ∈ taken then firstOfEachName taken rest
    else d :: firstOfEachName (d.name :: taken) rest

/-- The requests and responses that get a structure. -/
def exchangedDeclarations (c : Classification) : List Classified :=
  firstOfEachName [] (c.requests ++ c.responses)

/-- The concepts considered for a structure. -/
def storedConcepts (c : Classification) : List Classified :=
  firstOfEachName ((exchangedDeclarations c).map (·.name))
    (c.concepts.filter fun d => contractConcepts.contains d.name)

/-- The participants that get a structure. -/
def storedParticipants (c : Classification) : List Classified :=
  firstOfEachName ((exchangedDeclarations c ++ storedConcepts c).map (·.name)) c.participants

def exchangedStructure (d : Classified) : DataStructure :=
  { name := d.name, fields := fieldsOf transientProperties d.properties }

def conceptStructure? (d : Classified) : Option DataStructure :=
  match fieldsOf ("$identifier" :: transientProperties) d.properties with
  | [] => none
  | fields => some { name := d.name, fields, derivesDefault := true }

def participantStructure (d : Classified) : DataStructure :=
  { name := d.name
    fields := { name := "party_id", type := "String" }
      :: fieldsOf ("partyId" :: "$identifier" :: transientProperties) d.properties
    derivesDefault := true }

def dataStructures (c : Classification) : List DataStructure :=
  (exchangedDeclarations c).map exchangedStructure
    ++ (storedConcepts c).filterMap conceptStructure?
    ++ (storedParticipants c).map participantStructure

/-! ## Contracts -/

namespace Contract

/-- The name of the contract: the one given unless it is empty, or else that of the template. -/
def nameFor (given? : Option String) (templateModel? : Option Classified) : String :=
  match given? with
  | some given =>
    if given.isEmpty then derived else given
  | none => derived
where
  derived : String := Target.contractName ((templateModel?.map (·.name)).getD "")

/-- Builds the contract of a classification. -/
def synthesize (c : Classification) (given? : Option String) : Contract :=
  let template? := c.primaryTemplateModel?
  let name := nameFor given? template?
  { name
    moduleName := Target.moduleName name
    packageName := Target.packageName name
    templateModel? := template?
    request? := c.primaryRequest?
    response? := c.primaryResponse?
    storage := storageFields template?
    events := contractEvents (exchange? c)
    messages := contractMessages (exchange? c) (domainFields template?)
    errors := ContractError.all
    structures := dataStructures c
    templateModels := c.templateModels }

/-- The stored fields that come from the template model. -/
def domain (contract : Contract) : List StorageField :=
  contract.storage.filter (·.source?.isSome)

/-- The request and the response, if there are both. -/
def exchange? (contract : Contract) : Option (Classified × Classified) :=
  match contract.request?, contract.response? with
  | some request, some response => some (request, response)
  | _, _ => none

/-- What a log says about a contract. -/
def summary (contract : Contract) : String :=
  s!"Synthesized contract {contract.name}: {contract.storage.length} storage field(s), " ++
    s!"{contract.events.length} event(s), {contract.messages.length} message(s)"

end Contract

end Covenant
