import CosmosEvm.Lib.Result
import CosmosEvm.Sdk.Keepers

/-!
# The authz limiter

The decorator keeps some message types out of `authz`: none may be executed through `MsgExec` at any depth
or be granted, and `MsgExec` may only be nested so far.
-/

namespace CosmosEvm.Ante

-- `sdk.Msg`. A `MsgExec` or `MsgGrant` whose contents cannot be unpacked gives an error of its own.
inductive AuthzMsg where
  | exec (msgs : List AuthzMsg)
  | malformedExec (err : String)
  | grant (authorization : String)
  | malformedGrant (err : String)
  | other (url : String)

namespace AuthzMsg

def typeURL : AuthzMsg → String
  | .exec _ | .malformedExec _ => "/cosmos.authz.v1beta1.MsgExec"
  | .grant _ | .malformedGrant _ => "/cosmos.authz.v1beta1.MsgGrant"
  | .other url => url

def isExec : AuthzMsg → Bool
  | .exec _ => true
  | _ => false

end AuthzMsg

def maxNestedMsgs : ℕ := 7

def capNested (nestedLvl : ℕ) (loop : Except String Unit) : Except String Unit :=
  if maxNestedMsgs ≤ nestedLvl then
    .error s!"found more nested msgs than permitted; got: {nestedLvl}, expected: <{maxNestedMsgs}"
  else loop

variable (disabledMsgTypes : List String)

def checkType (looked : Bool) (url : String) : Except String Unit :=
  if looked = true ∧ url ∈ disabledMsgTypes then .error s!"found disabled msg type: {url}" else .ok ()

/-- The loop of `checkDisabledMsgs`. The level goes up at each `MsgExec` and stays up. -/
def checkMsgs (disabledMsgTypes : List String) : List AuthzMsg → Bool → ℕ → Except String Unit
  | [], _, _ => .ok ()
  | .exec innerMsgs :: msgs, isAuthzInnerMsg, nestedLvl => do
    capNested (nestedLvl + 1) (checkMsgs disabledMsgTypes innerMsgs true (nestedLvl + 1))
    checkMsgs disabledMsgTypes msgs isAuthzInnerMsg (nestedLvl + 1)
  | .malformedExec err :: _, _, _ => .error err
  | .grant url :: msgs, isAuthzInnerMsg, nestedLvl => do
    checkType disabledMsgTypes true url
    checkMsgs disabledMsgTypes msgs isAuthzInnerMsg nestedLvl
  | .malformedGrant err :: _, _, _ => .error err
  | .other url :: msgs, isAuthzInnerMsg, nestedLvl => do
    checkType disabledMsgTypes isAuthzInnerMsg url
    checkMsgs disabledMsgTypes msgs isAuthzInnerMsg nestedLvl

def checkDisabledMsgs (msgs : List AuthzMsg) (isAuthzInnerMsg : Bool)
    (nestedLvl : ℕ) : Except String Unit :=
  capNested nestedLvl (checkMsgs disabledMsgTypes msgs isAuthzInnerMsg nestedLvl)

def authzLimiterAnteHandle {α : Type} (msgs : List AuthzMsg) (next : Except Err α) : Except Err α :=
  match checkDisabledMsgs disabledMsgTypes msgs false 1 with
  | .error err => .error (.wrapped .unauthorized s!"{err}: unauthorized")
  | .ok () => next

inductive Occurs (msg : AuthzMsg) : List AuthzMsg → Prop where
  | here {msgs : List AuthzMsg} (hmem : msg ∈ msgs) : Occurs msg msgs
  | inside {inner msgs : List AuthzMsg} (hexec : .exec inner ∈ msgs) (hoccurs : Occurs msg inner) :
      Occurs msg msgs

inductive InsideExec (msg : AuthzMsg) : List AuthzMsg → Prop where
  | intro {inner msgs : List AuthzMsg} (hexec : .exec inner ∈ msgs) (hoccurs : Occurs msg inner) :
      InsideExec msg msgs

inductive Chain : ℕ → List AuthzMsg → Prop where
  | nil {msgs : List AuthzMsg} : Chain 0 msgs
  | cons {depth : ℕ} {inner msgs : List AuthzMsg} (hexec : .exec inner ∈ msgs)
      (hchain : Chain depth inner) : Chain (depth + 1) msgs

inductive Queue : ℕ → List AuthzMsg → Prop where
  | nil {msgs : List AuthzMsg} : Queue 0 msgs
  | cons {length : ℕ} {before inner after : List AuthzMsg} (hqueue : Queue length inner) :
      Queue (before.countP AuthzMsg.isExec + 1 + length) (before ++ .exec inner :: after)

def Unpacks (msgs : List AuthzMsg) : Prop :=
  ∀ err, ¬ Occurs (.malformedExec err) msgs ∧ ¬ Occurs (.malformedGrant err) msgs

def NamesDisabled (msgs : List AuthzMsg) : Prop :=
  (∃ msg, InsideExec msg msgs ∧ msg.typeURL ∈ disabledMsgTypes) ∨
    ∃ url, Occurs (.grant url) msgs ∧ url ∈ disabledMsgTypes

def TooDeep (msgs : List AuthzMsg) : Prop :=
  ∃ depth, Chain depth msgs ∧ maxNestedMsgs ≤ 1 + depth

/-- The level of some `MsgExec` reaches the cap when counted from the given one. -/
def Crowded (nestedLvl : ℕ) (msgs : List AuthzMsg) : Prop :=
  ∃ length, Queue length msgs ∧ maxNestedMsgs ≤ nestedLvl + length

section

variable {msg head : AuthzMsg} {inner msgs : List AuthzMsg} {nestedLvl : ℕ}

theorem occurs_nil : ¬ Occurs msg [] := by
  rintro (hmem | ⟨hexec, -⟩)
  · exact List.not_mem_nil hmem
  · exact List.not_mem_nil hexec

theorem occurs_exec_cons_iff : Occurs msg (.exec inner :: msgs) ↔
    msg = .exec inner ∨ Occurs msg inner ∨ Occurs msg msgs := by
  constructor
  · rintro (hmem | ⟨hexec, hoccurs⟩)
    · rcases List.mem_cons.mp hmem with heq | hmem
      · exact .inl heq
      · exact .inr (.inr (.here hmem))
    · rcases List.mem_cons.mp hexec with heq | hexec
      · cases heq
        exact .inr (.inl hoccurs)
      · exact .inr (.inr (.inside hexec hoccurs))
  · rintro (rfl | hoccurs | hmem | ⟨hexec, hoccurs⟩)
    · exact .here List.mem_cons_self
    · exact .inside List.mem_cons_self hoccurs
    · exact .here (List.mem_cons_of_mem _ hmem)
    · exact .inside (List.mem_cons_of_mem _ hexec) hoccurs

theorem occurs_cons_iff (hhead : head.isExec = false) :
    Occurs msg (head :: msgs) ↔ msg = head ∨ Occurs msg msgs := by
  constructor
  · rintro (hmem | ⟨hexec, hoccurs⟩)
    · rcases List.mem_cons.mp hmem with heq | hmem
      · exact .inl heq
      · exact .inr (.here hmem)
    · rcases List.mem_cons.mp hexec with heq | hexec
      · rw [← heq] at hhead
        cases hhead
      · exact .inr (.inside hexec hoccurs)
  · rintro (rfl | hmem | ⟨hexec, hoccurs⟩)
    · exact .here List.mem_cons_self
    · exact .here (List.mem_cons_of_mem _ hmem)
    · exact .inside (List.mem_cons_of_mem _ hexec) hoccurs

theorem insideExec_nil : ¬ InsideExec msg [] := by
  rintro ⟨hexec, -⟩
  exact List.not_mem_nil hexec

theorem insideExec_exec_cons_iff :
    InsideExec msg (.exec inner :: msgs) ↔ Occurs msg inner ∨ InsideExec msg msgs := by
  constructor
  · rintro ⟨hexec, hoccurs⟩
    rcases List.mem_cons.mp hexec with heq | hexec
    · cases heq
      exact .inl hoccurs
    · exact .inr ⟨hexec, hoccurs⟩
  · rintro (hoccurs | ⟨hexec, hoccurs⟩)
    · exact ⟨List.mem_cons_self, hoccurs⟩
    · exact ⟨List.mem_cons_of_mem _ hexec, hoccurs⟩

theorem insideExec_cons_iff (hhead : head.isExec = false) :
    InsideExec msg (head :: msgs) ↔ InsideExec msg msgs := by
  constructor
  · rintro ⟨hexec, hoccurs⟩
    rcases List.mem_cons.mp hexec with heq | hexec
    · rw [← heq] at hhead
      cases hhead
    · exact ⟨hexec, hoccurs⟩
  · rintro ⟨hexec, hoccurs⟩
    exact ⟨List.mem_cons_of_mem _ hexec, hoccurs⟩

theorem occurs_iff : Occurs msg msgs ↔ msg ∈ msgs ∨ InsideExec msg msgs := by
  constructor
  · rintro (hmem | ⟨hexec, hoccurs⟩)
    · exact .inl hmem
    · exact .inr ⟨hexec, hoccurs⟩
  · rintro (hmem | ⟨hexec, hoccurs⟩)
    · exact .here hmem
    · exact .inside hexec hoccurs

theorem crowded_nil_iff : Crowded nestedLvl [] ↔ maxNestedMsgs ≤ nestedLvl := by
  constructor
  · rintro ⟨length, hqueue, hle⟩
    generalize hmsgs : ([] : List AuthzMsg) = msgs at hqueue
    cases hqueue with
    | nil => exact hle
    | cons _ => simp at hmsgs
  · exact fun hle => ⟨0, .nil, hle⟩

theorem crowded_exec_cons_iff :
    Crowded nestedLvl (.exec inner :: msgs) ↔
      Crowded (nestedLvl + 1) inner ∨ Crowded (nestedLvl + 1) msgs := by
  constructor
  · rintro ⟨length, hqueue, hle⟩
    generalize hmsgs : AuthzMsg.exec inner :: msgs = all at hqueue
    cases hqueue with
    | nil => exact .inl ⟨0, .nil, by omega⟩
    | @cons length before inner' after hqueue =>
      cases before with
      | nil =>
        cases hmsgs
        rw [List.countP_nil] at hle
        exact .inl ⟨length, hqueue, by omega⟩
      | cons first before =>
        cases hmsgs
        rw [List.countP_cons_of_pos rfl] at hle
        exact .inr ⟨_, .cons hqueue, by omega⟩
  · rintro (⟨length, hqueue, hle⟩ | ⟨length, hqueue, hle⟩)
    · have hcons : Queue (List.countP AuthzMsg.isExec [] + 1 + length) ([] ++ .exec inner :: msgs) :=
        .cons hqueue
      exact ⟨_, hcons, by simp only [List.countP_nil]; omega⟩
    · cases hqueue with
      | nil =>
        have hcons : Queue (List.countP AuthzMsg.isExec [] + 1 + 0) ([] ++ .exec inner :: msgs) :=
          .cons .nil
        exact ⟨_, hcons, by simp only [List.countP_nil]; omega⟩
      | @cons length before inner' after hqueue =>
        have hcons : Queue ((.exec inner :: before).countP AuthzMsg.isExec + 1 + length)
            ((.exec inner :: before) ++ .exec inner' :: after) := .cons hqueue
        rw [List.countP_cons_of_pos rfl] at hcons
        exact ⟨_, hcons, by omega⟩

theorem crowded_cons_iff (hhead : head.isExec = false) :
    Crowded nestedLvl (head :: msgs) ↔ Crowded nestedLvl msgs := by
  constructor
  · rintro ⟨length, hqueue, hle⟩
    generalize hmsgs : head :: msgs = all at hqueue
    cases hqueue with
    | nil => exact ⟨0, .nil, hle⟩
    | @cons length before inner' after hqueue =>
      cases before with
      | nil =>
        cases hmsgs
        cases hhead
      | cons first before =>
        cases hmsgs
        rw [List.countP_cons_of_neg (by simp [hhead])] at hle
        exact ⟨_, .cons hqueue, hle⟩
  · rintro ⟨length, hqueue, hle⟩
    cases hqueue with
    | nil => exact ⟨0, .nil, hle⟩
    | @cons length before inner' after hqueue =>
      have hcons : Queue ((head :: before).countP AuthzMsg.isExec + 1 + length)
          ((head :: before) ++ .exec inner' :: after) := .cons hqueue
      rw [List.countP_cons_of_neg (by simp [hhead])] at hcons
      exact ⟨_, hcons, hle⟩

end

section

open Result

variable {disabledMsgTypes : List String} {looked : Bool} {nestedLvl : ℕ} {msgs : List AuthzMsg}

structure Clear (disabledMsgTypes : List String) (looked : Bool) (nestedLvl : ℕ) (msgs : List AuthzMsg) :
    Prop where
  nesting : ¬ Crowded nestedLvl msgs
  inside : ∀ url, InsideExec (.other url) msgs → url ∉ disabledMsgTypes
  top : looked = true → ∀ url, .other url ∈ msgs → url ∉ disabledMsgTypes
  granted : ∀ url, Occurs (.grant url) msgs → url ∉ disabledMsgTypes

theorem capNested_eq_ok_iff {loop : Except String Unit} :
    capNested nestedLvl loop = .ok () ↔ nestedLvl < maxNestedMsgs ∧ loop = .ok () := by
  unfold capNested
  split
  · next hle => simp [Nat.not_lt.mpr hle]
  · next hlt => simp [Nat.lt_of_not_le hlt]

theorem checkType_eq_ok_iff {url : String} :
    checkType disabledMsgTypes looked url = .ok () ↔ (looked = true → url ∉ disabledMsgTypes) := by
  unfold checkType
  split
  · next h => simp [h]
  · next h => simpa using h

theorem clear_nil (hlvl : nestedLvl < maxNestedMsgs) : Clear disabledMsgTypes looked nestedLvl [] where
  nesting := fun hcrowded => absurd (crowded_nil_iff.mp hcrowded) (Nat.not_le.mpr hlvl)
  inside := fun _ hinside => absurd hinside insideExec_nil
  top := fun _ _ hmem => absurd hmem List.not_mem_nil
  granted := fun _ hoccurs => absurd hoccurs occurs_nil

theorem clear_exec_cons_iff {inner : List AuthzMsg} :
    Clear disabledMsgTypes looked nestedLvl (.exec inner :: msgs) ↔
      Clear disabledMsgTypes true (nestedLvl + 1) inner ∧
        Clear disabledMsgTypes looked (nestedLvl + 1) msgs := by
  constructor
  · rintro ⟨hnesting, hinside, htop, hgranted⟩
    simp only [crowded_exec_cons_iff, not_or] at hnesting
    simp only [insideExec_exec_cons_iff] at hinside
    simp only [occurs_exec_cons_iff] at hgranted
    refine ⟨⟨hnesting.1, ?_, ?_, ?_⟩, ⟨hnesting.2, ?_, ?_, ?_⟩⟩
    · exact fun url h => hinside url (.inl (occurs_iff.mpr (.inr h)))
    · exact fun _ url h => hinside url (.inl (.here h))
    · exact fun url h => hgranted url (.inr (.inl h))
    · exact fun url h => hinside url (.inr h)
    · exact fun hlooked url h => htop hlooked url (List.mem_cons_of_mem _ h)
    · exact fun url h => hgranted url (.inr (.inr h))
  · rintro ⟨hinner, hrest⟩
    refine ⟨?_, ?_, ?_, ?_⟩
    · rw [crowded_exec_cons_iff, not_or]
      exact ⟨hinner.nesting, hrest.nesting⟩
    · intro url h
      rcases insideExec_exec_cons_iff.mp h with hoccurs | h
      · rcases occurs_iff.mp hoccurs with hmem | h
        · exact hinner.top rfl url hmem
        · exact hinner.inside url h
      · exact hrest.inside url h
    · intro hlooked url h
      rcases List.mem_cons.mp h with heq | h
      · cases heq
      · exact hrest.top hlooked url h
    · intro url h
      rcases occurs_exec_cons_iff.mp h with heq | h | h
      · cases heq
      · exact hinner.granted url h
      · exact hrest.granted url h

theorem clear_cons_iff (head : AuthzMsg) (hhead : head.isExec = false) :
    Clear disabledMsgTypes looked nestedLvl (head :: msgs) ↔
      ((looked = true → ∀ url, head = .other url → url ∉ disabledMsgTypes) ∧
        ∀ url, head = .grant url → url ∉ disabledMsgTypes) ∧
      Clear disabledMsgTypes looked nestedLvl msgs := by
  constructor
  · rintro ⟨hnesting, hinside, htop, hgranted⟩
    rw [crowded_cons_iff hhead] at hnesting
    simp only [insideExec_cons_iff hhead] at hinside
    simp only [occurs_cons_iff hhead] at hgranted
    refine ⟨⟨?_, ?_⟩, hnesting, hinside, ?_, ?_⟩
    · exact fun hlooked url heq => htop hlooked url (heq ▸ List.mem_cons_self)
    · exact fun url heq => hgranted url (.inl heq.symm)
    · exact fun hlooked url h => htop hlooked url (List.mem_cons_of_mem _ h)
    · exact fun url h => hgranted url (.inr h)
  · rintro ⟨⟨hother, hgrant⟩, hrest⟩
    refine ⟨(crowded_cons_iff hhead).not.mpr hrest.nesting, ?_, ?_, ?_⟩
    · exact fun url h => hrest.inside url ((insideExec_cons_iff hhead).mp h)
    · intro hlooked url h
      rcases List.mem_cons.mp h with heq | h
      · exact hother hlooked url heq.symm
      · exact hrest.top hlooked url h
    · intro url h
      rcases (occurs_cons_iff hhead).mp h with heq | h
      · exact hgrant url heq.symm
      · exact hrest.granted url h

theorem Unpacks.of_exec_cons {inner : List AuthzMsg} (hunpacks : Unpacks (.exec inner :: msgs)) :
    Unpacks inner ∧ Unpacks msgs := by
  simp only [Unpacks, occurs_exec_cons_iff, not_or] at hunpacks
  exact ⟨fun err => ⟨(hunpacks err).1.2.1, (hunpacks err).2.2.1⟩,
    fun err => ⟨(hunpacks err).1.2.2, (hunpacks err).2.2.2⟩⟩

theorem Unpacks.of_cons {head : AuthzMsg} (hhead : head.isExec = false)
    (hunpacks : Unpacks (head :: msgs)) : Unpacks msgs := by
  simp only [Unpacks, occurs_cons_iff hhead, not_or] at hunpacks
  exact fun err => ⟨(hunpacks err).1.2, (hunpacks err).2.2⟩

theorem checkMsgs_eq_ok_iff (hunpacks : Unpacks msgs) (hlvl : nestedLvl < maxNestedMsgs) :
    checkMsgs disabledMsgTypes msgs looked nestedLvl = .ok () ↔
      Clear disabledMsgTypes looked nestedLvl msgs := by
  -- the calls of the loop are the cases: the inner messages are looked at, the ones after it as before
  induction msgs, looked, nestedLvl using checkMsgs.induct with
  | case1 looked nestedLvl => simp [checkMsgs, clear_nil hlvl]
  | case2 inner msgs looked nestedLvl ihinner ihrest =>
    obtain ⟨hinner, hrest⟩ := hunpacks.of_exec_cons
    simp only [checkMsgs, seq_eq_ok_iff, capNested_eq_ok_iff, clear_exec_cons_iff]
    constructor
    · rintro ⟨⟨hdeeper, hcheck⟩, hafter⟩
      exact ⟨(ihinner hinner hdeeper).mp hcheck, (ihrest hrest hdeeper).mp hafter⟩
    · rintro ⟨hclear, hafter⟩
      have hdeeper : nestedLvl + 1 < maxNestedMsgs :=
        Nat.lt_of_not_le fun hle => hclear.nesting ⟨0, .nil, hle⟩
      exact ⟨⟨hdeeper, (ihinner hinner hdeeper).mpr hclear⟩, (ihrest hrest hdeeper).mpr hafter⟩
  | case3 err msgs looked nestedLvl => exact absurd (.here List.mem_cons_self) (hunpacks err).1
  | case4 url msgs looked nestedLvl ih =>
    simp only [checkMsgs, seq_eq_ok_iff, checkType_eq_ok_iff, ih (hunpacks.of_cons rfl) hlvl,
      clear_cons_iff (.grant url) rfl]
    simp
  | case5 err msgs looked nestedLvl => exact absurd (.here List.mem_cons_self) (hunpacks err).2
  | case6 url msgs looked nestedLvl ih =>
    simp only [checkMsgs, seq_eq_ok_iff, checkType_eq_ok_iff, ih (hunpacks.of_cons rfl) hlvl,
      clear_cons_iff (.other url) rfl]
    simp

/-- The verdict of the loop in terms of the tree. The types that are looked at are those of the messages inside
a `MsgExec` that are no `authz` messages themselves, and the granted ones. -/
theorem checkDisabledMsgs_eq_ok_iff (hunpacks : Unpacks msgs) :
    checkDisabledMsgs disabledMsgTypes msgs false 1 = .ok () ↔
      ¬ Crowded 1 msgs ∧ (∀ url, InsideExec (.other url) msgs → url ∉ disabledMsgTypes) ∧
        ∀ url, Occurs (.grant url) msgs → url ∉ disabledMsgTypes := by
  unfold checkDisabledMsgs
  rw [capNested_eq_ok_iff, checkMsgs_eq_ok_iff hunpacks (by decide)]
  constructor
  · rintro ⟨-, hnesting, hinside, -, hgranted⟩
    exact ⟨hnesting, hinside, hgranted⟩
  · rintro ⟨hnesting, hinside, hgranted⟩
    exact ⟨by decide, hnesting, hinside, nofun, hgranted⟩

theorem authzLimiterAnteHandle_rejects_iff {α : Type} (value : α) :
    (∃ err, authzLimiterAnteHandle disabledMsgTypes msgs (.ok value) = .error err) ↔
      ¬ checkDisabledMsgs disabledMsgTypes msgs false 1 = .ok () := by
  unfold authzLimiterAnteHandle
  cases checkDisabledMsgs disabledMsgTypes msgs false 1 <;> simp

theorem Chain.exists_queue {depth : ℕ} (hchain : Chain depth msgs) :
    ∃ length, depth ≤ length ∧ Queue length msgs := by
  induction hchain with
  | nil => exact ⟨0, le_rfl, .nil⟩
  | cons hexec _ ih =>
    obtain ⟨length, hle, hqueue⟩ := ih
    obtain ⟨before, after, rfl⟩ := List.append_of_mem hexec
    exact ⟨_, by omega, .cons hqueue⟩

end

def execSend : AuthzMsg := .exec [.other "/cosmos.bank.v1beta1.MsgSend"]

def evmdDisabledMsgTypes : List String :=
  ["/cosmos.evm.vm.v1.MsgEthereumTx", "/cosmos.vesting.v1beta1.MsgCreateVestingAccount"]

theorem occurs_send_iff {msg : AuthzMsg} :
    Occurs msg [.other "/cosmos.bank.v1beta1.MsgSend"] ↔ msg = .other "/cosmos.bank.v1beta1.MsgSend" := by
  rw [occurs_cons_iff rfl]
  exact or_iff_left occurs_nil

theorem crowded_send_iff {nestedLvl : ℕ} :
    Crowded nestedLvl [.other "/cosmos.bank.v1beta1.MsgSend"] ↔ maxNestedMsgs ≤ nestedLvl := by
  rw [crowded_cons_iff rfl, crowded_nil_iff]

theorem insideExec_replicate_execSend {msg : AuthzMsg} {n : ℕ}
    (hinside : InsideExec msg (List.replicate n execSend)) :
    msg = .other "/cosmos.bank.v1beta1.MsgSend" := by
  obtain ⟨hexec, hoccurs⟩ := hinside
  cases List.eq_of_mem_replicate hexec
  exact occurs_send_iff.mp hoccurs

theorem not_namesDisabled_replicate_execSend (n : ℕ) :
    ¬ NamesDisabled evmdDisabledMsgTypes (List.replicate n execSend) := by
  rintro (⟨msg, hinside, hmem⟩ | ⟨url, hgrant, -⟩)
  · rw [insideExec_replicate_execSend hinside] at hmem
    exact absurd hmem (by decide)
  · rcases occurs_iff.mp hgrant with hmem | hinside
    · cases List.eq_of_mem_replicate hmem
    · cases insideExec_replicate_execSend hinside

theorem not_tooDeep_replicate_execSend (n : ℕ) : ¬ TooDeep (List.replicate n execSend) := by
  rintro ⟨depth, hchain, hle⟩
  cases hchain with
  | nil => exact absurd hle (by decide)
  | cons hexec hchain =>
    cases List.eq_of_mem_replicate hexec
    cases hchain with
    | nil => exact absurd hle (by decide)
    | cons hexec _ =>
      cases List.mem_singleton.mp hexec

theorem unpacks_replicate_execSend (n : ℕ) : Unpacks (List.replicate n execSend) := by
  intro err
  constructor
  · intro hoccurs
    rcases occurs_iff.mp hoccurs with hmem | hinside
    · cases List.eq_of_mem_replicate hmem
    · cases insideExec_replicate_execSend hinside
  · intro hoccurs
    rcases occurs_iff.mp hoccurs with hmem | hinside
    · cases List.eq_of_mem_replicate hmem
    · cases insideExec_replicate_execSend hinside

/-- The decorator rejects a transaction if and only if a disabled type occurs inside a `MsgExec` or is granted,
or the levels reach the cap when the `MsgExec` before a link of the chain count as well. Nesting too deep is the
case of a chain with nothing before its links. -/
theorem authzLimiter_rejects_iff {α : Type} (disabledMsgTypes : List String) (msgs : List AuthzMsg)
    (value : α) (hunpacks : Unpacks msgs)
    (hauthz : ∀ msg, InsideExec msg msgs → msg.typeURL ∈ disabledMsgTypes → ∃ url, msg = .other url) :
    ((∃ err, authzLimiterAnteHandle disabledMsgTypes msgs (.ok value) = .error err) ↔
        NamesDisabled disabledMsgTypes msgs ∨ Crowded 1 msgs) ∧
      (TooDeep msgs → Crowded 1 msgs) := by
  rw [authzLimiterAnteHandle_rejects_iff, checkDisabledMsgs_eq_ok_iff hunpacks]
  refine ⟨⟨?_, ?_⟩, ?_⟩
  · intro hrejects
    by_contra hnone
    rw [not_or] at hnone
    exact hrejects ⟨hnone.2, fun url h hmem => hnone.1 (.inl ⟨_, h, hmem⟩),
      fun url h hmem => hnone.1 (.inr ⟨url, h, hmem⟩)⟩
  · rintro ((⟨msg, hinside, hmem⟩ | ⟨url, hgrant, hmem⟩) | hcrowded) ⟨hnesting, hnone, hungranted⟩
    · obtain ⟨url, rfl⟩ := hauthz msg hinside hmem
      exact hnone url hinside hmem
    · exact hungranted url hgrant hmem
    · exact hnesting hcrowded
  · rintro ⟨depth, hchain, hle⟩
    obtain ⟨length, hlength, hqueue⟩ := hchain.exists_queue
    exact ⟨length, hqueue, by omega⟩

theorem authzLimiter_rejects_iff_siblings :
    (¬ ∃ err, authzLimiterAnteHandle evmdDisabledMsgTypes (List.replicate 5 execSend) (.ok ()) = .error err) ∧
      ∃ err, authzLimiterAnteHandle evmdDisabledMsgTypes (.grant "/cosmos.evm.vm.v1.MsgEthereumTx" ::
        List.replicate 5 execSend) (.ok ()) = .error err := by
  constructor
  · rw [(authzLimiter_rejects_iff evmdDisabledMsgTypes (List.replicate 5 execSend) ()
      (unpacks_replicate_execSend 5) fun _ h _ => ⟨_, insideExec_replicate_execSend h⟩).1]
    rintro (hnames | hcrowded)
    · exact not_namesDisabled_replicate_execSend 5 hnames
    · simp only [execSend, List.replicate, crowded_exec_cons_iff, crowded_send_iff, crowded_nil_iff]
        at hcrowded
      exact absurd hcrowded (by decide)
  · refine (authzLimiter_rejects_iff evmdDisabledMsgTypes _ () ?_ ?_).1.mpr
      (.inl (.inr ⟨_, .here List.mem_cons_self, by decide⟩))
    · intro err
      rw [occurs_cons_iff rfl, occurs_cons_iff rfl]
      have hunpacks := unpacks_replicate_execSend 5 err
      exact ⟨fun h => h.elim nofun hunpacks.1, fun h => h.elim nofun hunpacks.2⟩
    · intro msg hinside _
      exact ⟨_, insideExec_replicate_execSend ((insideExec_cons_iff rfl).mp hinside)⟩

/-- Six `MsgExec` beside one another are rejected, with nothing nested in them. -/
theorem authzLimiter_rejects_siblings :
    (∃ err, authzLimiterAnteHandle evmdDisabledMsgTypes (List.replicate 6 execSend) (.ok ()) = .error err) ∧
      ¬ NamesDisabled evmdDisabledMsgTypes (List.replicate 6 execSend) ∧
        ¬ TooDeep (List.replicate 6 execSend) := by
  refine ⟨?_, not_namesDisabled_replicate_execSend 6, not_tooDeep_replicate_execSend 6⟩
  rw [authzLimiterAnteHandle_rejects_iff, checkDisabledMsgs_eq_ok_iff (unpacks_replicate_execSend 6)]
  rintro ⟨hnesting, -⟩
  refine hnesting ?_
  simp only [execSend, List.replicate, crowded_exec_cons_iff, crowded_send_iff, crowded_nil_iff]
  decide

end CosmosEvm.Ante
