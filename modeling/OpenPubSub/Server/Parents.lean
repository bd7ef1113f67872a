import OpenPubSub.Server.Configure

/-!
# Parents of configured entities

Which identifiers the wrappers hand to open62541, against the identifiers open62541 gave
out.

- `latest kind es` is the identifier produced by the most recent successful creation of
  an entity of that kind, read off the exchanges.
- `AttachedToLatest`: wherever an identifier is handed over, it is the latest one of its
  kind.
- `Linked` is the invariant: the members hold the latest identifiers. Every wrapper
  keeps it (`Linked.step`), and hands over members only, except `addReaderGroup`.
- **`attachedToLatest_iff`**: in a run in which every parent is created before it is used,
  everything is attached to the latest parent if and only if no reader group is added.
-/

namespace OpenPubSub

namespace Server

/-! ## What was created last -/

/-- The entities whose identifiers are handed over again. -/
inductive EntityKind where
  | connection | publishedDataSet | writerGroup | dataSetWriter
  deriving DecidableEq

/-- The kind of entity a request creates, if it is one of these. -/
def Request.creates : Request → Option EntityKind
  | .addPubSubConnection _ => some .connection
  | .addPublishedDataSet _ => some .publishedDataSet
  | .addWriterGroup _ _ => some .writerGroup
  | .addDataSetWriter _ _ _ => some .dataSetWriter
  | _ => none

/-- The identifiers that are handed over with a request. -/
def Request.targets : Request → List (EntityKind × Ident)
  | .addPubSubConnection _ | .addPublishedDataSet _ => []
  | .addDataSetField publishedDataSet _ => [(.publishedDataSet, publishedDataSet)]
  | .addWriterGroup connection _ => [(.connection, connection)]
  | .setWriterGroupOperational writerGroup => [(.writerGroup, writerGroup)]
  | .addDataSetWriter writerGroup publishedDataSet _ =>
    [(.writerGroup, writerGroup), (.publishedDataSet, publishedDataSet)]
  | .addReaderGroup connection _ => [(.connection, connection)]
  | .getPubSubConnectionConfig connection | .removePubSubConnection connection =>
    [(.connection, connection)]
  | .getDataSetWriterConfig dataSetWriter | .removeDataSetWriter dataSetWriter =>
    [(.dataSetWriter, dataSetWriter)]

/-- Does the exchange create an entity of the kind? -/
def Exchange.hasCreated (kind : EntityKind) (e : Exchange) : Bool :=
  e.request.creates == some kind && e.reply.status == good

/-- The identifier the most recent successful creation has produced; `es` is the past, in
order. -/
def latest (kind : EntityKind) (es : List Exchange) : Option NodeId :=
  es.foldl (fun last e => if e.hasCreated kind then some e.reply.ident else last) none

/-- What is handed over with a request is the latest identifier of its kind. Where no entity
of the kind was ever created, nothing is asked: a writer group whose creation was refused is
still set operational, with whatever identifier the member holds. -/
def Exchange.Attached (past : List Exchange) (e : Exchange) : Prop :=
  ∀ target ∈ e.request.targets, ∀ id, latest target.1 past = some id → target.2 = .init id

/-- Everything in the exchanges `es` is attached to the latest parent; `past` are the
exchanges before. -/
def AttachedToLatest (past : List Exchange) : List Exchange → Prop
  | [] => True
  | e :: es => e.Attached past ∧ AttachedToLatest (past ++ [e]) es

/-- The entities a call relies on. -/
def Call.parents : Call → List EntityKind
  | .addPubSubConnection .. | .addPublishedDataSet .. => []
  | .addDataSetField .. | .addInt32DataSetField .. => [.publishedDataSet]
  | .addWriterGroup .. | .addReaderGroup .. => [.connection]
  | .addDataSetWriter .. => [.writerGroup, .publishedDataSet]
  | .getPubSubConnectionConfig .. | .removePubSubConnection .. => [.connection]
  | .getDataSetWriterConfig .. | .removeDataSetWriter .. => [.dataSetWriter]

/-- Every parent is created before it is used; `past` are the exchanges so far. -/
def ParentsCreated (s : Impl) (past : List Exchange) : List Call → Prop
  | [] => True
  | c :: cs => (∀ kind ∈ c.parents, (latest kind past).isSome = true) ∧
      ParentsCreated (step s c).impl (past ++ (step s c).exchanges) cs

/-- The call is `addReaderGroup`. -/
def Call.isAddReaderGroup : Call → Bool
  | .addReaderGroup _ => true
  | _ => false

/-! ## The invariant -/

/-- The member for identifiers of a kind. -/
def Impl.ident (s : Impl) : EntityKind → NodeId
  | .connection => s.connectionIdent
  | .publishedDataSet => s.publishedDataSetIdent
  | .writerGroup => s.writerGroupIdent
  | .dataSetWriter => s.dataSetWriterIdent

/-- The members hold the latest identifiers. -/
def Linked (s : Impl) (past : List Exchange) : Prop :=
  ∀ kind id, latest kind past = some id → s.ident kind = id

theorem latest_append (kind : EntityKind) (past : List Exchange) (e : Exchange) :
    latest kind (past ++ [e]) =
      if e.hasCreated kind then some e.reply.ident else latest kind past := by
  rw [latest, List.foldl_append]
  rfl

theorem linked_new : Linked .new [] := by
  intro kind id h
  cases h

/-- A request that hands over members. -/
def Exchange.UsesMembers (s : Impl) (e : Exchange) : Prop :=
  ∀ target ∈ e.request.targets, target.2 = .init (s.ident target.1)

/-- The member of the kind that was created gets the new identifier, the others stay. -/
def Exchange.Updates (s s' : Impl) (e : Exchange) : Prop :=
  ∀ kind, s'.ident kind = if e.hasCreated kind then e.reply.ident else s.ident kind

theorem Linked.attached {s : Impl} {past : List Exchange} {e : Exchange} (hs : Linked s past)
    (he : e.UsesMembers s) : e.Attached past := by
  intro target htarget id hlatest
  rw [he target htarget, hs target.1 id hlatest]

theorem Linked.push {s s' : Impl} {past : List Exchange} {e : Exchange} (hs : Linked s past)
    (he : e.Updates s s') : Linked s' (past ++ [e]) := by
  intro kind id hlatest
  rw [latest_append] at hlatest
  rw [he kind]
  by_cases hcreated : e.hasCreated kind = true
  · rw [if_pos hcreated] at hlatest ⊢
    exact Option.some.inj hlatest
  · rw [if_neg hcreated] at hlatest ⊢
    exact hs kind id hlatest

/-- Exchanges that hand over members, and update them one after the other. -/
inductive Serves : Impl → List Exchange → Impl → Prop
  | nil (s : Impl) : Serves s [] s
  | cons {s s' s'' : Impl} {e : Exchange} {es : List Exchange} (uses : e.UsesMembers s)
      (updates : e.Updates s s') (rest : Serves s' es s'') : Serves s (e :: es) s''

/-- One exchange, and what it does to the members. -/
theorem serves_one {s s' : Impl} {e : Exchange} (uses : e.UsesMembers s)
    (updates : e.Updates s s') : Serves s [e] s' :=
  .cons uses updates (.nil s')

theorem Serves.attached {s s' : Impl} {es : List Exchange} (h : Serves s es s') :
    ∀ {past : List Exchange}, Linked s past →
      AttachedToLatest past es ∧ Linked s' (past ++ es) := by
  induction h with
  | nil s =>
    intro past hs
    rw [List.append_nil]
    exact ⟨trivial, hs⟩
  | @cons s s' s'' e es uses updates rest ih =>
    intro past hs
    have hrest := ih (hs.push updates)
    rw [List.append_assoc, List.singleton_append] at hrest
    exact ⟨⟨hs.attached uses, hrest.1⟩, hrest.2⟩

/-- A reply to a request that creates an entity of the kind is stored in the member. -/
theorem updates_of_creates {s s' : Impl} {e : Exchange} {k : EntityKind}
    (hcreates : e.request.creates = some k)
    (hkind : s'.ident k = e.reply.store (s.ident k))
    (hother : ∀ other, other ≠ k → s'.ident other = s.ident other) : e.Updates s s' := by
  intro other
  unfold Exchange.hasCreated
  rw [hcreates]
  by_cases h : other = k
  · subst h
    rw [hkind, Reply.store]
    by_cases hgood : e.reply.status = good <;> simp [hgood]
  · have hne : (some k == some other) = false := by simpa using fun heq => h heq.symm
    rw [hother other h, hne, Bool.false_and]
    rfl

theorem updates_of_creates_none {s : Impl} {e : Exchange} (hcreates : e.request.creates = none) :
    e.Updates s s := by
  intro kind
  unfold Exchange.hasCreated
  rw [hcreates]
  rfl

/-! ## The wrappers -/

/-- A request without an identifier to hand over, or with members only. -/
theorem usesMembers_nil {s : Impl} {e : Exchange} (h : e.request.targets = []) :
    e.UsesMembers s := by
  intro target htarget
  rw [h] at htarget
  cases htarget

theorem usesMembers_one {s : Impl} {e : Exchange} {k : EntityKind}
    (h : e.request.targets = [(k, .init (s.ident k))]) : e.UsesMembers s := by
  intro target htarget
  rw [h] at htarget
  rw [List.mem_singleton.mp htarget]

/-- Every wrapper but `addReaderGroup` hands over members, and stores what it gets. -/
theorem step_serves (s : Impl) {c : Call} (hc : c.isAddReaderGroup = false) :
    Serves s (step s c).exchanges (step s c).impl := by
  cases c with
  | addPubSubConnection networkAddressUrl connectionName pubId r =>
    refine serves_one (usesMembers_nil rfl) (updates_of_creates (k := .connection) rfl rfl ?_)
    intro other hother
    cases other <;> first | rfl | exact absurd rfl hother
  | addPublishedDataSet pdsName r =>
    refine serves_one (usesMembers_nil rfl)
      (updates_of_creates (k := .publishedDataSet) rfl rfl ?_)
    intro other hother
    cases other <;> first | rfl | exact absurd rfl hother
  | addWriterGroup r operational =>
    -- the second request already gets the identifier the first one has stored
    have hoperational : Serves (addWriterGroup s r operational).impl
        [⟨.setWriterGroupOperational (.init (r.store s.writerGroupIdent)), operational⟩]
        (addWriterGroup s r operational).impl :=
      serves_one (usesMembers_one (k := .writerGroup) rfl) (updates_of_creates_none rfl)
    refine .cons (usesMembers_one (k := .connection) rfl)
      (updates_of_creates (k := .writerGroup) rfl rfl ?_) hoperational
    intro other hother
    cases other <;> first | rfl | exact absurd rfl hother
  | addDataSetWriter r =>
    refine serves_one ?_ (updates_of_creates (k := .dataSetWriter) rfl rfl ?_)
    · intro target htarget
      rcases List.mem_cons.mp htarget with rfl | htarget
      · rfl
      · rw [List.mem_singleton.mp htarget]
        rfl
    · intro other hother
      cases other <;> first | rfl | exact absurd rfl hother
  | addDataSetField fieldName r | addInt32DataSetField publishedVariable r =>
    exact serves_one (usesMembers_one (k := .publishedDataSet) rfl)
      (updates_of_creates_none rfl)
  | getPubSubConnectionConfig r | removePubSubConnection r =>
    exact serves_one (usesMembers_one (k := .connection) rfl) (updates_of_creates_none rfl)
  | getDataSetWriterConfig r | removeDataSetWriter r =>
    exact serves_one (usesMembers_one (k := .dataSetWriter) rfl) (updates_of_creates_none rfl)
  | addReaderGroup r => cases hc

theorem step_server (s : Impl) (c : Call) : (step s c).impl.server = s.server := by
  cases c with
  | addReaderGroup r =>
    show (addReaderGroup s r).impl.server = s.server
    unfold addReaderGroup
    split <;> rfl
  | _ => rfl

/-- A reader group is attached to a connection nobody has created. -/
theorem addReaderGroup_not_attached {s : Impl} {past : List Exchange} {r : Reply}
    (hserver : s.server = true) (hparent : (latest .connection past).isSome = true)
    (es : List Exchange) :
    ¬ AttachedToLatest past ((step s (.addReaderGroup r)).exchanges ++ es) := by
  obtain ⟨id, hid⟩ := Option.isSome_iff_exists.mp hparent
  have hrequest : (step s (.addReaderGroup r)).exchanges =
      [⟨.addReaderGroup .uninit "ReaderGroup1", r⟩] := by
    show (addReaderGroup s r).exchanges = _
    rw [addReaderGroup, if_pos hserver]
  rw [hrequest]
  rintro ⟨h, -⟩
  have huninit : (Slot.uninit : Ident) = .init id :=
    h (.connection, .uninit) (List.mem_singleton.mpr rfl) id hid
  cases huninit

/-! ## Whole runs -/

theorem attachedToLatest_append {past es fs : List Exchange} :
    AttachedToLatest past (es ++ fs) ↔
      AttachedToLatest past es ∧ AttachedToLatest (past ++ es) fs := by
  induction es generalizing past with
  | nil => simp [AttachedToLatest]
  | cons e es ih => simp [AttachedToLatest, ih, and_assoc]

/-- From members that hold the latest identifiers on. -/
theorem attachedToLatest_run_iff {s : Impl} {past : List Exchange} {calls : List Call}
    (hserver : s.server = true) (hs : Linked s past) (hparents : ParentsCreated s past calls) :
    AttachedToLatest past (run s calls) ↔ ∀ c ∈ calls, c.isAddReaderGroup = false := by
  induction calls generalizing s past with
  | nil => exact ⟨fun _ _ h => (List.not_mem_nil h).elim, fun _ => trivial⟩
  | cons c cs ih =>
    rw [run, List.forall_mem_cons]
    cases hc : c.isAddReaderGroup with
    | false =>
      have hstep := (step_serves s hc).attached hs
      have hrest := ih ((step_server s c).trans hserver) hstep.2 hparents.2
      rw [attachedToLatest_append, hrest]
      exact ⟨fun h => ⟨rfl, h.2⟩, fun h => ⟨hstep.1, h.2⟩⟩
    | true =>
      cases c with
      | addReaderGroup r =>
        have hparent := hparents.1 .connection (List.mem_singleton.mpr rfl)
        exact iff_of_false (addReaderGroup_not_attached hserver hparent _)
          fun h => Bool.noConfusion h.1
      | _ => cases hc

/-- **Which runs attach everything to the latest parent**: those in which no reader group is
added. -/
theorem attachedToLatest_iff {calls : List Call} (h : ParentsCreated .new [] calls) :
    AttachedToLatest [] (run .new calls) ↔ ∀ c ∈ calls, c.isAddReaderGroup = false :=
  attachedToLatest_run_iff rfl linked_new h

/-- A connection, and a reader group on it. -/
def readerOnConnection : List Call :=
  [.addPubSubConnection ⟨none, uaString "opc.udp://224.0.0.22:4840/"⟩ "UADP Connection 1" 2234
      ⟨good, ⟨0, .numeric 1⟩⟩,
    .addReaderGroup ⟨good, ⟨0, .numeric 2⟩⟩]

theorem readerOnConnection_not_attached :
    ¬ AttachedToLatest [] (run .new readerOnConnection) := by
  rintro ⟨-, h, -⟩
  have huninit : (Slot.uninit : Ident) = .init ⟨0, .numeric 1⟩ :=
    h (.connection, .uninit) (List.mem_singleton.mpr rfl) _ rfl
  cases huninit

/-- Two connections with the same address, and a writer group. -/
def groupOnSecondConnection : List Call :=
  [.addPubSubConnection ⟨none, uaString "opc.udp://224.0.0.22:4840/"⟩ "UADP Connection 1" 2234
      ⟨good, ⟨0, .numeric 1⟩⟩,
    .addPubSubConnection ⟨none, uaString "opc.udp://224.0.0.22:4840/"⟩ "UADP Connection 2" 2235
      ⟨good, ⟨0, .numeric 2⟩⟩,
    .addWriterGroup ⟨good, ⟨0, .numeric 3⟩⟩ ⟨good, default⟩]

/-- The writer group goes to the second one. -/
theorem groupOnSecondConnection_attached :
    AttachedToLatest [] (run .new groupOnSecondConnection) := by
  have hparents : ParentsCreated .new [] groupOnSecondConnection :=
    ⟨nofun, nofun, fun _ h => by
      rw [List.mem_singleton.mp h]
      rfl, trivial⟩
  exact (attachedToLatest_iff hparents).mpr (by decide)

end Server

end OpenPubSub
