import StagingMemory.Proofs.Traffic
import StagingMemory.StagingBuffer
/-!
Staging buffers in the hands of their holders. A holder makes a buffer, writes to it, drops it, or
takes it apart and later gives its block back; any number of holders do so at a time, under any
strict mode. What carries the proofs is that the hand matches the slot of the process that serves
it, and a ledger for each hand: what was handed out to it is what it still has, and what it passed
back. Main statement: every block is passed back once, to its resource and with its length
(`Bench.exact_of_use`).
-/
namespace StagingMemory

/-! ### Hands -/

inductive Hand where
  | empty
  /-- A buffer of so many bytes is being made. -/
  | making (r : Resource) (length : UInt64)
  | buffer (b : StagingBuffer)
  /-- The parts of a buffer that was given up. -/
  | raw (r : Resource) (parts : Option Nat × UInt64)
  /-- A block is on its way back. -/
  | releasing

namespace Hand

def made (r : Resource) (length : UInt64) : Progress Call Reply → Hand
  | .running _ => making r length
  | .done (.returned (.allocated block)) => buffer (.ofAllocated r length block)
  | .done _ => empty

def left : Progress Call Reply → Hand
  | .running _ => releasing
  | .done _ => empty

def owned? : Hand → Option (Resource × Block)
  | buffer b => b.block?.map (b.resource, ·)
  | raw r (address?, length) => address?.map fun address => (r, ⟨address, length⟩)
  | _ => none

def isEmpty : Hand → Bool
  | empty => true
  | _ => false

theorem isEmpty_iff {hand : Hand} : hand.isEmpty = true ↔ hand = empty := by
  cases hand <;> simp [isEmpty]

inductive Matches : Hand → Slot → Prop
  | empty {x : Slot} (h : x.stage = .idle) : Matches .empty x
  | making {x : Slot} {c : Call} {length : UInt64} (h : x.stage = .calling c)
      (hstake : c.stake = .asked length) (hlength : length ≠ 0) :
      Matches (.making x.source length) x
  | hollow {x : Slot} (r : Resource) (h : x.stage = .idle) : Matches (.buffer ⟨r, 0, none⟩) x
  | buffer {x : Slot} {block : Block} (h : x.stage = .holding block) (hlength : block.bytes ≠ 0) :
      Matches (.buffer ⟨x.source, block.bytes, some block.address⟩) x
  | hollowRaw {x : Slot} (r : Resource) (h : x.stage = .idle) : Matches (.raw r (none, 0)) x
  | raw {x : Slot} {block : Block} (h : x.stage = .holding block) (hlength : block.bytes ≠ 0) :
      Matches (.raw x.source (some block.address, block.bytes)) x
  | releasing {x : Slot} {c : Call} {block : Block} (h : x.stage = .calling c)
      (hstake : c.stake = .owed block) : Matches .releasing x

variable {Modes : StrictMode → Prop} {r : Resource} {length : UInt64} {block : Block}
  {progress : Progress Call Reply} {entered? : Option Entry}

theorem matches_made (h : Posting Modes (.asked length) progress entered?)
    (hzero : length = 0 → progress = .done (.returned (.allocated none))) :
    (made r length progress).Matches ⟨.after progress, r⟩ := by
  cases h with
  | @running _ c hstake =>
    exact .making (x := ⟨.calling c, r⟩) rfl hstake fun h => nomatch hzero h
  | nothing => exact .hollow r rfl
  | handedOut block => exact .buffer (x := ⟨.holding block, r⟩) rfl fun h => nomatch hzero h
  | refused | failedFatally | warnedFatally => exact .empty rfl

theorem matches_left (h : Posting Modes (.owed block) progress entered?) (r : Resource) :
    (left progress).Matches ⟨.after progress, r⟩ := by
  cases h with
  | running hstake => exact .releasing rfl hstake
  | released | releasedFatally => exact .empty rfl

end Hand

/-! ### The bench -/

/-- Holders, and the process whose resources they use: each has a slot of its own there. -/
structure Bench (ι : Type v) where
  depot : Depot ι
  hand : ι → Hand

inductive Deed (ι : Type v) where
  | create (i : ι) (r : Resource) (length : UInt64)
  | write (i : ι) (offset : Nat) (bytes : Array UInt8)
  | drop (i : ι)
  | intoRaw (i : ι)
  /-- The block of a buffer that was given up is passed back. -/
  | giveBack (i : ι)
  /-- What the holder has begun takes a step. -/
  | advance (i : ι)

namespace Bench

universe v

variable {ι : Type v}

/-- The holder has a block that came from the account, or such a block is on its way back. -/
def Live (b : Bench ι) (id : Nat) (i : ι) : Prop :=
  (∃ r block, (b.hand i).owned? = some (r, block) ∧ r.account = id) ∨
    b.hand i = .releasing ∧ (b.depot.slot i).source.account = id

theorem live_iff {b : Bench ι} {i : ι} {id : Nat} (h : (b.hand i).Matches (b.depot.slot i)) :
    b.Live id i ↔ ((b.depot.slot i).owed? id).isSome := by
  unfold Live Slot.owed?
  generalize b.depot.slot i = x at h
  generalize b.hand i = hand at h
  cases h with
  | empty h | hollow _ h | hollowRaw _ h =>
    simp [Hand.owned?, StagingBuffer.block?, h, Stage.stake, Stake.owed?]
  | making h hstake | releasing h hstake =>
    simp [Hand.owned?, h, Stage.stake, hstake, Stake.owed?]
  | buffer h | raw h => simp [Hand.owned?, StagingBuffer.block?, h, Stage.stake, Stake.owed?]

variable [DecidableEq ι]

def settle (b : Bench ι) (i : ι) (source : Resource) (result : Progress Call Reply × Site)
    (hand : Hand) : Bench ι :=
  ⟨b.depot.settle i source result, Function.update b.hand i hand⟩

/-- The bench after a deed, and the request or step that came with it, unless the hand has nothing
to do it with. -/
def perform? (b : Bench ι) : Deed ι → Option (Option (Depot.Event ι) × Bench ι)
  | .create i r length =>
    match b.hand i with
    | .empty =>
      let result := r.beginAllocate length b.depot.site
      some (some (.asked i r length), b.settle i r result (.made r length result.1))
    | _ => none
  | .write i offset bytes =>
    match b.hand i with
    | .buffer x =>
      if offset + bytes.size ≤ x.accessible then
        some (none, { b with depot.site := b.depot.site.store (x.address + offset) bytes })
      else none
    | _ => none
  | .drop i =>
    match b.hand i with
    | .buffer x =>
      let result := x.beginDrop b.depot.site
      match x.block? with
      | some block =>
        some (some (.given i x.resource block), b.settle i x.resource result (.left result.1))
      | none =>
        some (none, ⟨{ b.depot with site := result.2 }, Function.update b.hand i (.left result.1)⟩)
    | _ => none
  | .intoRaw i =>
    match b.hand i with
    | .buffer x =>
      some (none, { b with hand := Function.update b.hand i (.raw x.resource x.intoRaw) })
    | _ => none
  | .giveBack i =>
    match b.hand i with
    | .raw r (some address, length) =>
      let result := r.beginRelease ⟨address, length⟩ b.depot.site
      some (some (.given i r ⟨address, length⟩), b.settle i r result (.left result.1))
    | .raw _ (none, _) => some (none, { b with hand := Function.update b.hand i .empty })
    | _ => none
  | .advance i =>
    match (b.depot.slot i).stage, b.hand i with
    | .calling c, .making r length =>
      let result := c.step b.depot.site
      some (some (.stepped i c), b.settle i (b.depot.slot i).source result
        (.made r length result.1))
    | .calling c, .releasing =>
      let result := c.step b.depot.site
      some (some (.stepped i c), b.settle i (b.depot.slot i).source result (.left result.1))
    | _, _ => none

/-- What is noted of a deed is the request or the step that it consists in. -/
theorem depot_of_perform? {b next : Bench ι} {deed : Deed ι} {event : Depot.Event ι}
    (hdone : b.perform? deed = some (some event, next)) :
    next.depot = b.depot.settle event.slot (event.source b.depot) (event.result b.depot.site) := by
  cases deed with
  | create i r length | giveBack i =>
    simp only [perform?] at hdone
    split at hdone <;> cases hdone
    rfl
  | write i offset bytes =>
    simp only [perform?] at hdone
    split at hdone
    · split at hdone <;> cases hdone
    · cases hdone
  | intoRaw i =>
    simp only [perform?] at hdone
    split at hdone <;> cases hdone
  | drop i =>
    simp only [perform?] at hdone
    split at hdone
    case h_1 x hhand =>
      split at hdone
      case h_1 block hblock =>
        cases hdone
        simp only [settle, StagingBuffer.beginDrop_of_block?_eq_some hblock]
        rfl
      case h_2 => cases hdone
    case h_2 => cases hdone
  | advance i =>
    simp only [perform?] at hdone
    split at hdone <;> cases hdone <;> rfl

/-- The account is open and has room for what is about to be handed out, and the clock can hold the
deadline that is about to be set. -/
def InRange (b : Bench ι) : Deed ι → Prop
  | .create _ r length => r.account < b.depot.site.process.accounts.length ∧
      r.Roomy length b.depot.site.process ∧ r.Prompt b.depot.site.kernel.clock
  | .advance i =>
    match (b.depot.slot i).stage with
    | .calling c => c.Roomy b.depot.site ∧ c.Timely b.depot.site
    | _ => True
  | _ => True

instance (b : Bench ι) : DecidablePred b.InRange := fun deed => by
  unfold InRange
  split
  · infer_instance
  · split <;> infer_instance
  · infer_instance

/-- Any deeds of the holders, one after the other, while elsewhere in the process accounts are
opened and anything outside may change. It ends where a call aborts the process. -/
inductive Use (b₀ : Bench ι) : Depot.Past ι → Bench ι → Prop
  | start : Use b₀ [] b₀
  | act {past : Depot.Past ι} {b next : Bench ι} {event? : Option (Depot.Event ι)} (deed : Deed ι)
      (huse : Use b₀ past b) (hdone : b.perform? deed = some (event?, next))
      (hrange : b.InRange deed)
      (hgoes : ∀ event, event? = some event → (event.result b.depot.site).1 ≠ .done .aborted) :
      Use b₀ ((event?.map (·, b.depot)).toList ++ past) next
  | elsewhere {past : Depot.Past ι} {b : Bench ι} (s : Site) (huse : Use b₀ past b)
      (hopens : b.depot.site.Opens s) : Use b₀ past { b with depot.site := s }

end Bench

/-! ### The ledger -/

namespace Depot

universe v

variable {ι : Type v} [DecidableEq ι]

def Event.handed? (i : ι) (e : Depot ι) (event : Event ι) : Option (Resource × Block) :=
  if event.slot = i then
    match (event.result e.site).1 with
    | .done (.returned (.allocated (some block))) => some (event.source e, block)
    | _ => none
  else none

def Event.passed? (i : ι) : Event ι → Option (Resource × Block)
  | given j r block => if j = i then some (r, block) else none
  | _ => none

/-- What was handed out in the slot, newest first. -/
def handed (i : ι) (past : Past ι) : List (Resource × Block) :=
  past.filterMap fun (event, e) => event.handed? i e

def passed (i : ι) (past : Past ι) : List (Resource × Block) :=
  past.filterMap fun (event, _) => event.passed? i

variable {i : ι} {e : Depot ι} {event : Event ι} {past : Past ι}

theorem handed_cons :
    handed i ((event, e) :: past) = (event.handed? i e).toList ++ handed i past := by
  simp only [handed, List.filterMap_cons]
  split <;> simp_all

theorem passed_cons :
    passed i ((event, e) :: past) = (event.passed? i).toList ++ passed i past := by
  simp only [passed, List.filterMap_cons]
  split <;> simp_all

theorem Event.handed?_of_ne (h : i ≠ event.slot) : event.handed? i e = none :=
  if_neg (Ne.symm h)

theorem Event.passed?_of_ne (h : i ≠ event.slot) : event.passed? i = none := by
  cases event with
  | given j r block => exact if_neg (Ne.symm h)
  | asked | stepped => rfl

variable {Modes : StrictMode → Prop} {entered? : Option Entry} {length : UInt64} {block : Block}

/-- What an allocation hands out is what the holder then has. -/
theorem Event.handed?_of_asked
    (h : Posting Modes (.asked length) (event.result e.site).1 entered?) :
    event.handed? event.slot e =
      (Hand.made (event.source e) length (event.result e.site).1).owned? := by
  rw [handed?, if_pos rfl]
  generalize (event.result e.site).1 = progress at h
  cases h <;> rfl

theorem Event.handed?_of_owed
    (h : Posting Modes (.owed block) (event.result e.site).1 entered?) :
    event.handed? event.slot e = none := by
  rw [handed?, if_pos rfl]
  generalize (event.result e.site).1 = progress at h
  cases h <;> rfl

/-- What is handed out has the length that was asked for. -/
theorem stake_of_handed? {r : Resource}
    (h : Posting Modes event.stake (event.result e.site).1 entered?)
    (hhanded : event.handed? i e = some (r, block)) : event.stake = .asked block.bytes := by
  unfold Event.handed? at hhanded
  generalize (event.result e.site).1 = progress at h hhanded
  generalize event.stake = stake at h ⊢
  split at hhanded
  · cases h <;> cases hhanded
    rfl
  · cases hhanded

end Depot

namespace Hand

@[simp] theorem owned?_left (progress : Progress Call Reply) : (left progress).owned? = none := by
  cases progress <;> rfl

end Hand

namespace Bench

universe v

variable {ι : Type v} [DecidableEq ι] {b₀ b : Bench ι} {past : Depot.Past ι}
  {event : Depot.Event ι} {hand : Hand}

/-- The process has made the requests of the holders, each hand has what its slot has, and what was
handed out is what the hand still has and what it has passed back. -/
structure Sound (b₀ : Bench ι) (past : Depot.Past ι) (b : Bench ι) : Prop where
  traffic : Depot.Traffic (.own fun _ => True) b₀.depot past b.depot
  hands : ∀ i, (b.hand i).Matches (b.depot.slot i)
  ledger : ∀ i, Depot.handed i past = (b.hand i).owned?.toList ++ Depot.passed i past

/-- What happens in one slot leaves the others alone. -/
theorem Sound.act (h : Sound b₀ past b) (hmay : b.depot.May (.own fun _ => True) event)
    (hgoes : (event.result b.depot.site).1 ≠ .done .aborted)
    (hhand : hand.Matches ⟨.after (event.result b.depot.site).1, event.source b.depot⟩)
    (hledger : (event.handed? event.slot b.depot).toList ++ (b.hand event.slot).owned?.toList =
      hand.owned?.toList ++ (event.passed? event.slot).toList) :
    Sound b₀ ((event, b.depot) :: past)
      (b.settle event.slot (event.source b.depot) (event.result b.depot.site) hand) := by
  refine ⟨.act event h.traffic trivial hmay hgoes, fun i => ?_, fun i => ?_⟩
  · by_cases hi : i = event.slot
    · subst hi
      simp only [settle, Function.update_self, Depot.slot_settle_self]
      exact hhand
    · simp only [settle, Function.update_of_ne hi, Depot.slot_settle_of_ne hi]
      exact h.hands i
  · rw [Depot.handed_cons, Depot.passed_cons, h.ledger i]
    by_cases hi : i = event.slot
    · subst hi
      simp only [settle, Function.update_self]
      rw [← List.append_assoc, hledger, List.append_assoc]
    · simp only [settle, Function.update_of_ne hi, Depot.Event.handed?_of_ne hi,
        Depot.Event.passed?_of_ne hi, Option.toList_none, List.nil_append]

/-- A hand that takes part in nothing may come to have the same in another way. -/
theorem Sound.rehand (h : Sound b₀ past b) {i : ι} (hhand : hand.Matches (b.depot.slot i))
    (howned : hand.owned? = (b.hand i).owned?) :
    Sound b₀ past { b with hand := Function.update b.hand i hand } := by
  refine ⟨h.traffic, fun j => ?_, fun j => ?_⟩
  · by_cases hj : j = i
    · subst hj
      simp only [Function.update_self]
      exact hhand
    · simp only [Function.update_of_ne hj]
      exact h.hands j
  · by_cases hj : j = i
    · subst hj
      simp only [Function.update_self, howned]
      exact h.ledger j
    · simp only [Function.update_of_ne hj]
      exact h.ledger j

theorem Sound.elsewhere (h : Sound b₀ past b) {s : Site} (hopens : b.depot.site.Opens s) :
    Sound b₀ past { b with depot.site := s } :=
  ⟨.elsewhere s h.traffic hopens, h.hands, h.ledger⟩

/-- An allocation goes on, or hands out what the holder then has. -/
theorem Sound.act_made (h : Sound b₀ past b) (hmay : b.depot.May (.own fun _ => True) event)
    (hgoes : (event.result b.depot.site).1 ≠ .done .aborted)
    (hslot : (b.depot.slot event.slot).Orderly (fun _ => True) b.depot.site.process)
    {length : UInt64} (hstake : event.stake = .asked length)
    (hzero : length = 0 → (event.result b.depot.site).1 = .done (.returned (.allocated none)))
    (hbefore : (b.hand event.slot).owned? = none) (hpassed : event.passed? event.slot = none) :
    Sound b₀ ((event, b.depot) :: past) (b.settle event.slot (event.source b.depot)
      (event.result b.depot.site)
      (.made (event.source b.depot) length (event.result b.depot.site).1)) := by
  obtain ⟨-, entered?, hposting, -⟩ := hmay.posting trivial hgoes hslot
  rw [hstake] at hposting
  refine h.act hmay hgoes (Hand.matches_made hposting hzero) ?_
  rw [Depot.Event.handed?_of_asked hposting, hbefore, hpassed]

/-- A release takes the block out of the hand, in whatever way it ends. -/
theorem Sound.act_left (h : Sound b₀ past b) (hmay : b.depot.May (.own fun _ => True) event)
    (hgoes : (event.result b.depot.site).1 ≠ .done .aborted)
    (hslot : (b.depot.slot event.slot).Orderly (fun _ => True) b.depot.site.process)
    {block : Block} (hstake : event.stake = .owed block)
    (hpassed : (b.hand event.slot).owned? = event.passed? event.slot) :
    Sound b₀ ((event, b.depot) :: past) (b.settle event.slot (event.source b.depot)
      (event.result b.depot.site) (.left (event.result b.depot.site).1)) := by
  obtain ⟨-, entered?, hposting, -⟩ := hmay.posting trivial hgoes hslot
  rw [hstake] at hposting
  refine h.act hmay hgoes (Hand.matches_left hposting _) ?_
  rw [Depot.Event.handed?_of_owed hposting, hpassed, Hand.owned?_left]

/-- A block in the hand goes back to the resource that the slot has it from. -/
theorem Sound.pass (h : Sound b₀ past b)
    (hslots : ∀ i, (b.depot.slot i).Orderly (fun _ => True) b.depot.site.process) {i : ι}
    {block : Block} (hholding : (b.depot.slot i).stage = .holding block)
    (howned : (b.hand i).owned? = some ((b.depot.slot i).source, block))
    (hgoes : ((b.depot.slot i).source.beginRelease block b.depot.site).1 ≠ .done .aborted) :
    Sound b₀ ((.given i (b.depot.slot i).source block, b.depot) :: past)
      (b.settle i (b.depot.slot i).source
        ((b.depot.slot i).source.beginRelease block b.depot.site)
        (.left ((b.depot.slot i).source.beginRelease block b.depot.site).1)) := by
  have hopen := (hslots i).opened (by rw [hholding]; nofun)
  have hmay : b.depot.May (.own fun _ => True) (.given i (b.depot.slot i).source block) :=
    .give i _ block hholding hopen rfl
  exact h.act_left hmay hgoes (hslots i) rfl (howned.trans (if_pos rfl).symm)

section

variable {deed : Deed ι} {event? : Option (Depot.Event ι)} {next : Bench ι}

theorem Sound.create (h : Sound b₀ past b)
    (hslots : ∀ i, (b.depot.slot i).Orderly (fun _ => True) b.depot.site.process)
    {i : ι} {r : Resource} {length : UInt64}
    (hdone : b.perform? (.create i r length) = some (event?, next))
    (hrange : b.InRange (.create i r length))
    (hgoes : ∀ event, event? = some event → (event.result b.depot.site).1 ≠ .done .aborted) :
    Sound b₀ ((event?.map (·, b.depot)).toList ++ past) next := by
  have hmatches := h.hands i
  cases hhand : b.hand i <;> simp only [perform?, hhand] at hdone <;> cases hdone
  rw [hhand] at hmatches
  cases hmatches with
  | empty hidle =>
    obtain ⟨hopen, hroomy, hprompt⟩ := hrange
    have hmay : b.depot.May (.own fun _ => True) (.asked i r length) :=
      .ask i r length hidle trivial hopen hroomy hprompt
    refine h.act_made hmay (hgoes _ rfl) (hslots i) rfl ?_ (congrArg Hand.owned? hhand) rfl
    rintro rfl
    rfl

/-- Bytes within a buffer are its holder's, and no account's. -/
theorem Sound.write (h : Sound b₀ past b) {i : ι} {offset : Nat} {bytes : Array UInt8}
    (hdone : b.perform? (.write i offset bytes) = some (event?, next)) :
    Sound b₀ ((event?.map (·, b.depot)).toList ++ past) next := by
  have hopens (address : Nat) : b.depot.site.Opens (b.depot.site.store address bytes) := by
    refine ⟨0, ?_⟩
    unfold Site.store
    split <;> exact (List.append_nil _).symm
  cases hhand : b.hand i <;> simp only [perform?, hhand] at hdone <;> try cases hdone
  case buffer x =>
    obtain ⟨-, hdone⟩ := Option.ite_none_right_eq_some.mp hdone
    cases hdone
    exact h.elsewhere (hopens _)

theorem Sound.drop (h : Sound b₀ past b)
    (hslots : ∀ i, (b.depot.slot i).Orderly (fun _ => True) b.depot.site.process) {i : ι}
    (hdone : b.perform? (.drop i) = some (event?, next))
    (hgoes : ∀ event, event? = some event → (event.result b.depot.site).1 ≠ .done .aborted) :
    Sound b₀ ((event?.map (·, b.depot)).toList ++ past) next := by
  have hmatches := h.hands i
  cases hhand : b.hand i <;> simp only [perform?, hhand] at hdone <;> try cases hdone
  rw [hhand] at hmatches
  cases hmatches with
  | hollow r hidle =>
    cases hdone
    exact h.rehand (.empty hidle) (congrArg Hand.owned? hhand).symm
  | buffer hholding hlength =>
    cases hdone
    exact h.pass hslots hholding (congrArg Hand.owned? hhand) (hgoes _ rfl)

/-- Taking a buffer apart is a matter between its holder's hands. -/
theorem Sound.intoRaw (h : Sound b₀ past b) {i : ι}
    (hdone : b.perform? (.intoRaw i) = some (event?, next)) :
    Sound b₀ ((event?.map (·, b.depot)).toList ++ past) next := by
  have hmatches := h.hands i
  cases hhand : b.hand i <;> simp only [perform?, hhand] at hdone <;> cases hdone
  rw [hhand] at hmatches
  cases hmatches with
  | hollow r hidle => exact h.rehand (.hollowRaw r hidle) (congrArg Hand.owned? hhand).symm
  | buffer hholding hlength =>
    exact h.rehand (.raw hholding hlength) (congrArg Hand.owned? hhand).symm

theorem Sound.giveBack (h : Sound b₀ past b)
    (hslots : ∀ i, (b.depot.slot i).Orderly (fun _ => True) b.depot.site.process) {i : ι}
    (hdone : b.perform? (.giveBack i) = some (event?, next))
    (hgoes : ∀ event, event? = some event → (event.result b.depot.site).1 ≠ .done .aborted) :
    Sound b₀ ((event?.map (·, b.depot)).toList ++ past) next := by
  have hmatches := h.hands i
  cases hhand : b.hand i <;> simp only [perform?, hhand] at hdone <;> try cases hdone
  rw [hhand] at hmatches
  cases hmatches with
  | hollowRaw r hidle =>
    cases hdone
    exact h.rehand (.empty hidle) (congrArg Hand.owned? hhand).symm
  | raw hholding hlength =>
    cases hdone
    exact h.pass hslots hholding (congrArg Hand.owned? hhand) (hgoes _ rfl)

theorem Sound.advance (h : Sound b₀ past b)
    (hslots : ∀ i, (b.depot.slot i).Orderly (fun _ => True) b.depot.site.process) {i : ι}
    (hdone : b.perform? (.advance i) = some (event?, next)) (hrange : b.InRange (.advance i))
    (hgoes : ∀ event, event? = some event → (event.result b.depot.site).1 ≠ .done .aborted) :
    Sound b₀ ((event?.map (·, b.depot)).toList ++ past) next := by
  have hmatches := h.hands i
  cases hstage : (b.depot.slot i).stage with
  | idle | holding | halted => simp only [perform?, hstage, reduceCtorEq] at hdone
  | calling c =>
    simp only [InRange, hstage] at hrange
    have hmay : b.depot.May (.own fun _ => True) (.stepped i c) :=
      .step i c hstage hrange.1 hrange.2
    cases hhand : b.hand i <;> simp only [perform?, hstage, hhand] at hdone <;> cases hdone
    · rw [hhand] at hmatches
      cases hmatches with
      | @making _ c' length hcalling hstake hlength =>
        cases hcalling.symm.trans hstage
        exact h.act_made hmay (hgoes _ rfl) (hslots i) hstake (fun hzero => absurd hzero hlength)
          (congrArg Hand.owned? hhand) rfl
    · rw [hhand] at hmatches
      cases hmatches with
      | @releasing _ c' block hcalling hstake =>
        cases hcalling.symm.trans hstage
        exact h.act_left hmay (hgoes _ rfl) (hslots i) hstake (congrArg Hand.owned? hhand)

theorem Sound.step (h : Sound b₀ past b)
    (hslots : ∀ i, (b.depot.slot i).Orderly (fun _ => True) b.depot.site.process)
    (hdone : b.perform? deed = some (event?, next)) (hrange : b.InRange deed)
    (hgoes : ∀ event, event? = some event → (event.result b.depot.site).1 ≠ .done .aborted) :
    Sound b₀ ((event?.map (·, b.depot)).toList ++ past) next := by
  cases deed with
  | create => exact h.create hslots hdone hrange hgoes
  | write => exact h.write hdone
  | drop => exact h.drop hslots hdone hgoes
  | intoRaw => exact h.intoRaw hdone
  | giveBack => exact h.giveBack hslots hdone hgoes
  | advance => exact h.advance hslots hdone hrange hgoes

end

def Vacant (b : Bench ι) : Prop := ∀ i, b.hand i = .empty ∧ (b.depot.slot i).stage = .idle

theorem sound_of_use (huse : Use b₀ past b) (hvacant : b₀.Vacant) : Sound b₀ past b := by
  have hlength : ∀ (e : Depot ι) (s : Site), (Depot.Rules.own fun _ => True).Between e s →
      e.site.process.accounts.length ≤ s.process.accounts.length := fun _ _ h => h.length_le
  induction huse with
  | start =>
    refine ⟨.start, fun i => ?_, fun i => ?_⟩
    · rw [(hvacant i).1]
      exact .empty (hvacant i).2
    · rw [(hvacant i).1]
      rfl
  | act deed huse hdone hrange hgoes ih =>
    have hslots := Depot.orderly_of_traffic ih.traffic (fun i => (hvacant i).2) hlength
    exact ih.step hslots hdone hrange hgoes
  | elsewhere s huse hopens ih => exact ih.elsewhere hopens

/-! ### Exactly once -/

/-- Deeds that have nothing to do with any memory. -/
def Light (b : Bench ι) : Deed ι → Prop
  | .create _ _ length => length = 0
  | .drop i => ∃ x, b.hand i = .buffer x ∧ x.isEmpty = true
  | .intoRaw _ => True
  | _ => False

/-- What can be said of the blocks of buffers when this happened. -/
structure Exact (b₀ : Bench ι) (past : Depot.Past ι) (b : Bench ι) : Prop where
  /-- What was handed out to a holder is what it has, and what it has passed back, each block once,
  to its resource and with its length. -/
  ledger : ∀ i, Depot.handed i past = (b.hand i).owned?.toList ++ Depot.passed i past
  gone : (∀ i, b.hand i = .empty) → ∀ i, Depot.handed i past = Depot.passed i past
  length : ∀ event e, (event, e) ∈ past → ∀ i r block, event.handed? i e = some (r, block) →
    event.stake = .asked block.bytes
  /-- A holder with nothing to pass back, such as one whose buffer could not be made, is owed
  nothing. -/
  nothing : ∀ i, (b.hand i).owned? = none → ∀ block, (b.depot.slot i).stage ≠ .holding block
  /-- Once a block is being passed back, in whatever way that ends, it cannot be again. -/
  spent : ∀ deed event? next i, b.perform? deed = some (event?, next) →
    deed = .drop i ∨ deed = .giveBack i → (next.hand i).owned? = none
  /-- What is noted of a deed is the call that was made. -/
  called : ∀ deed event next, b.perform? deed = some (some event, next) →
    next.depot = b.depot.settle event.slot (event.source b.depot) (event.result b.depot.site)
  /-- A drop passes back the block of the buffer, as long as the buffer, if it has one. -/
  dropped : ∀ i x event? next, b.hand i = .buffer x → b.perform? (.drop i) = some (event?, next) →
    event? = x.block?.map (.given i x.resource) ∧
      next.depot.site = (x.beginDrop b.depot.site).2
  light : ∀ deed event? next, b.perform? deed = some (event?, next) → b.Light deed →
    next.depot.site = b.depot.site ∧ ∀ i r block, event? ≠ some (.given i r block)
  /-- What is active on an account is what the holders have of it. -/
  active : ∀ id, b₀.depot.site.process.account id = .zero →
    ∃ live : Finset ι, (∀ i, i ∈ live ↔ b.Live id i) ∧
      (Depot.tallied id past .handedOut < UInt64.size →
        (b.depot.site.process.account id).active.toNat = live.card)

theorem spent_of_perform? {deed : Deed ι} {event? : Option (Depot.Event ι)} {next : Bench ι} {i : ι}
    (hdone : b.perform? deed = some (event?, next)) (hdeed : deed = .drop i ∨ deed = .giveBack i) :
    (next.hand i).owned? = none := by
  rcases hdeed with rfl | rfl
  · cases hhand : b.hand i <;> simp only [perform?, hhand] at hdone <;> try cases hdone
    split at hdone <;> cases hdone <;> simp [settle]
  · cases hhand : b.hand i <;> simp only [perform?, hhand] at hdone <;> try cases hdone
    split at hdone <;> cases hdone
    · simp [settle]
    · simp [Hand.owned?]

theorem dropped_of_perform? {i : ι} {x : StagingBuffer} {event? : Option (Depot.Event ι)}
    {next : Bench ι} (hhand : b.hand i = .buffer x)
    (hdone : b.perform? (.drop i) = some (event?, next)) :
    event? = x.block?.map (.given i x.resource) ∧
      next.depot.site = (x.beginDrop b.depot.site).2 := by
  simp only [perform?, hhand] at hdone
  split at hdone
  case h_1 block hblock =>
    cases hdone
    exact ⟨by rw [hblock, Option.map_some], rfl⟩
  case h_2 hblock =>
    cases hdone
    exact ⟨by rw [hblock, Option.map_none], rfl⟩

theorem Sound.light (h : Sound b₀ past b) {deed : Deed ι} {event? : Option (Depot.Event ι)}
    {next : Bench ι} (hdone : b.perform? deed = some (event?, next)) (hlight : b.Light deed) :
    next.depot.site = b.depot.site ∧ ∀ i r block, event? ≠ some (.given i r block) := by
  cases deed with
  | write | giveBack | advance => cases hlight
  | create i r length =>
    obtain rfl : length = 0 := hlight
    cases hhand : b.hand i <;> simp only [perform?, hhand] at hdone <;> cases hdone
    exact ⟨rfl, nofun⟩
  | intoRaw i =>
    cases hhand : b.hand i <;> simp only [perform?, hhand] at hdone <;> cases hdone
    exact ⟨rfl, nofun⟩
  | drop i =>
    obtain ⟨x, hhand, hempty⟩ := hlight
    have hmatches := h.hands i
    rw [hhand] at hmatches
    simp only [perform?, hhand] at hdone
    cases hmatches with
    | hollow r hidle =>
      cases hdone
      exact ⟨rfl, nofun⟩
    | buffer hholding hlength => exact absurd (eq_of_beq hempty) hlength

/-- In every state that any use of buffers can reach, under any strict mode, every block that was
handed out is in one hand or was passed back, once. -/
theorem exact_of_use (huse : Use b₀ past b) (hvacant : b₀.Vacant) : Exact b₀ past b := by
  have h := sound_of_use huse hvacant
  have hidle : ∀ i, (b₀.depot.slot i).stage = .idle := fun i => (hvacant i).2
  refine ⟨h.ledger, fun hgone i => ?_, fun event e hmem i r block hhanded => ?_,
    fun i hnone block => ?_, fun deed event? next i => spent_of_perform?,
    fun deed event next => depot_of_perform?, fun i x event? next => dropped_of_perform?,
    fun deed event? next => h.light, fun id hzero => ?_⟩
  · rw [h.ledger i, hgone i]
    rfl
  · obtain ⟨earlier, hrun, -, hmay, hgoes⟩ := h.traffic.of_mem hmem
    have hslots := Depot.orderly_of_traffic hrun hidle fun e s h => Site.Opens.length_le h
    obtain ⟨-, entered?, hposting, -⟩ := hmay.posting trivial hgoes (hslots event.slot)
    exact Depot.stake_of_handed? hposting hhanded
  · have hmatches := h.hands i
    cases hhand : b.hand i <;> rw [hhand] at hmatches hnone <;> cases hmatches <;>
      simp_all [Hand.owned?, StagingBuffer.block?]
  · have hbalanced :=
      Depot.balanced_of_traffic h.traffic (fun _ _ h => h) (fun _ _ h => h) hidle hzero
    obtain ⟨owing, howing, hcount, -⟩ := hbalanced.owing
    exact ⟨owing, fun i => (howing i).trans (live_iff (h.hands i)).symm, hbalanced.active_eq hcount⟩

/-! ### A use -/

def carry? : List (Deed ι) → Depot.Past ι × Bench ι → Option (Depot.Past ι × Bench ι)
  | [], reached => some reached
  | deed :: rest, (past, b) => (b.perform? deed).bind fun (event?, next) =>
    if b.InRange deed ∧ ∀ event ∈ event?, (event.result b.depot.site).1 ≠ .done .aborted then
      carry? rest ((event?.map (·, b.depot)).toList ++ past, next)
    else none

theorem use_of_carry? (huse : Use b₀ past b) (deeds : List (Deed ι))
    {reached : Depot.Past ι × Bench ι} (h : carry? deeds (past, b) = some reached) :
    Use b₀ reached.1 reached.2 := by
  induction deeds generalizing past b with
  | nil =>
    cases h
    exact huse
  | cons deed rest ih =>
    simp only [carry?, Option.bind_eq_some_iff, Option.ite_none_right_eq_some] at h
    obtain ⟨⟨event?, next⟩, hdone, ⟨hrange, hgoes⟩, h⟩ := h
    exact ih (.act deed huse hdone hrange hgoes) h

def begun : Bench Bool where
  depot.site := ⟨.initial [1] 0,
    { (Process.fresh 1).openAccount.2.openAccount.2 with
      strict := StrictCell.fresh.set .fatalWarnings }⟩
  depot.slot _ := ⟨.idle, Depot.original⟩
  hand _ := .empty

def pinned : Resource := ⟨.pinned, .host .required, 1⟩

def unnamed (b : Bench Bool) : Bench Bool :=
  { b with depot.site := b.depot.site.unbind (Machine.sample () id).config.segment }

/-- A buffer of shared memory is made and written to, and one of pinned memory is made and taken
apart; then the name of the shared memory disappears, over which the drop of the first buffer
faults; a buffer of length zero comes and goes, and the raw block is passed back. -/
theorem exact_of_use_fatal : ∃ (past : Depot.Past Bool) (b : Bench Bool), begun.Vacant ∧
    Use begun past b ∧ Exact begun past b ∧ (∀ i, b.hand i = .empty) ∧
      (Depot.passed false past).map (·.2.bytes) = [4096] ∧
      (Depot.passed true past).map (·.2.bytes) = [100] ∧
      b.depot.site.process.accounts = [⟨⟨1⟩, ⟨1⟩, ⟨0⟩, ⟨0, 4096⟩⟩, ⟨⟨1⟩, ⟨1⟩, ⟨0⟩, ⟨0, 100⟩⟩] := by
  have hvacant : begun.Vacant := fun i => ⟨rfl, rfl⟩
  obtain ⟨⟨past, b⟩, hplay, hreached⟩ := Option.map_eq_some_iff.mp
    (by decide +kernel :
      ((carry? (.create false Depot.original 4096 :: List.replicate 10 (.advance false) ++
          [.write false 8 #[1, 2, 3], .create true pinned 100, .intoRaw true])
          ([], begun)).bind fun (past, b) =>
        carry? (.drop false :: List.replicate 6 (.advance false) ++
          [.create false Depot.original 0, .drop false, .giveBack true]) (past, b.unnamed)).map
            (fun (past, b) => ((Depot.passed false past).map (·.2.bytes),
              (Depot.passed true past).map (·.2.bytes), b.depot.site.process.accounts,
              (b.hand false).isEmpty, (b.hand true).isEmpty)) =
        some ([4096], [100], [⟨⟨1⟩, ⟨1⟩, ⟨0⟩, ⟨0, 4096⟩⟩, ⟨⟨1⟩, ⟨1⟩, ⟨0⟩, ⟨0, 100⟩⟩], true, true))
  simp only [Prod.mk.injEq, Hand.isEmpty_iff] at hreached
  obtain ⟨hfalse, htrue, haccounts, hdropped, hreturned⟩ := hreached
  obtain ⟨⟨earlier, d⟩, hfirst, hsecond⟩ := Option.bind_eq_some_iff.mp hplay
  have hunnamed : Use begun earlier d.unnamed :=
    .elsewhere _ (use_of_carry? .start _ hfirst) ⟨0, (List.append_nil _).symm⟩
  have huse := use_of_carry? hunnamed _ hsecond
  have hgone : ∀ i, b.hand i = .empty := fun i => by
    cases i
    · exact hdropped
    · exact hreturned
  exact ⟨past, b, hvacant, huse, exact_of_use huse hvacant, hgone, hfalse, htrue, haccounts⟩

end Bench

end StagingMemory
