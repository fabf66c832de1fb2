import CilPatch.Assembly.Basic
import CilPatch.Proofs.Step

/-!
# Why a body cannot be decoded

A stored body is not decoded for what is wrong with its bytes: they are damaged, too few, or hold an
instruction without meaning. So a fault that comes from a body is never mistaken for what a search
by name has to say.
-/

namespace CilPatch

variable {α β : Type}

/-- A fault that says what is wrong with bytes. -/
def Fault.IsOfBytes : Fault → Prop
  | .malformed _ | .outOfBounds | .instruction _ => True
  | _ => False

/-- A result that is missing only for faults of some kind. -/
def FailsOnly (kind : Fault → Prop) (result : Except Fault α) : Prop :=
  ∀ fault, result = .error fault → kind fault

/-! ## Results -/

section Results

variable {kind : Fault → Prop} {result : Except Fault α} {next : α → Except Fault β}

theorem failsOnly_ok (value : α) : FailsOnly kind (.ok value) := by
  rintro _ ⟨⟩

theorem failsOnly_error {fault : Fault} (h : kind fault) :
    FailsOnly kind (.error fault : Except Fault α) := by
  rintro _ ⟨⟩
  exact h

/-- A kind of faults may be part of another. -/
theorem FailsOnly.mono {other : Fault → Prop} (h : FailsOnly kind result)
    (hkind : ∀ fault, kind fault → other fault) : FailsOnly other result :=
  fun fault hfault => hkind fault (h fault hfault)

/-- A result after another is missing for the faults of either. -/
theorem FailsOnly.bind (h : FailsOnly kind result) (hnext : ∀ value, FailsOnly kind (next value)) :
    FailsOnly kind (result >>= next) := by
  cases result with
  | error fault => exact failsOnly_error (h fault rfl)
  | ok value => exact hnext value

/-- A result that is changed is missing when the result is. -/
theorem FailsOnly.map {change : α → β} (h : FailsOnly kind result) :
    FailsOnly kind (change <$> result) := by
  cases result with
  | error fault => exact failsOnly_error (h fault rfl)
  | ok value => exact failsOnly_ok _

/-- Results for a list are missing for the faults of one of them. -/
theorem failsOnly_mapM {each : α → Except Fault β} (h : ∀ member, FailsOnly kind (each member))
    (list : List α) : FailsOnly kind (list.mapM each) := by
  induction list with
  | nil => exact failsOnly_ok []
  | cons head tail ih =>
    rw [List.mapM_cons]
    exact (h head).bind fun _ => ih.bind fun _ => failsOnly_ok _

/-- A result behind a check is missing for the fault of the check or those of the result. -/
theorem FailsOnly.check {check : Prop} [Decidable check] {fault : Fault}
    {next : PUnit → Except Fault α} (hfault : kind fault) (hnext : FailsOnly kind (next ⟨⟩)) :
    FailsOnly kind (if check then throw fault >>= next else next ⟨⟩) := by
  split
  · exact failsOnly_error hfault
  · exact hnext

/-- A result behind a choice of results is missing for the faults of any. -/
theorem FailsOnly.choice {check : Prop} [Decidable check] {other : Except Fault α}
    (h : FailsOnly kind result) (hother : FailsOnly kind other)
    (hnext : ∀ value, FailsOnly kind (next value)) :
    FailsOnly kind (if check then result >>= next else other >>= next) := by
  split
  · exact h.bind hnext
  · exact hother.bind hnext

end Results

/-! ## Reading steps -/

namespace Read

variable {step : Read α} {next : α → Read β}

/-- A step that gives up only for what is wrong with the bytes. -/
def FailsOnBytes (step : Read α) : Prop :=
  ∀ cursor, FailsOnly Fault.IsOfBytes (step.run cursor).1

theorem failsOnBytes_pure (value : α) : FailsOnBytes (pure value) := fun _ => failsOnly_ok value

theorem failsOnBytes_get : FailsOnBytes get := fun cursor => failsOnly_ok cursor

theorem failsOnBytes_throw {fault : Fault} (h : fault.IsOfBytes) :
    FailsOnBytes (throw fault : Read α) := fun _ => failsOnly_error h

/-- A step after another gives up where either does. -/
theorem FailsOnBytes.bind (h : FailsOnBytes step) (hnext : ∀ value, FailsOnBytes (next value)) :
    FailsOnBytes (step >>= next) := by
  intro cursor fault hfault
  have hstep := h cursor
  rw [step_bind] at hfault
  rcases hrun : step.run cursor with ⟨cause | value, after⟩
  · rw [hrun] at hfault hstep
    obtain rfl : cause = fault := Except.error.inj hfault
    exact hstep cause rfl
  · rw [hrun] at hfault
    exact hnext value after fault hfault

/-- A step whose value is changed gives up where the step does. -/
theorem FailsOnBytes.map {change : α → β} (h : FailsOnBytes step) :
    FailsOnBytes (change <$> step) := by
  rw [← bind_pure_comp]
  exact h.bind fun value => failsOnBytes_pure (change value)

/-- What a step reads in a block is missing where the step gives up. -/
theorem FailsOnBytes.parse (h : FailsOnBytes step) (data : Bytes) :
    FailsOnly Fault.IsOfBytes (Cursor.parse step data) := h ⟨data, 0⟩

theorem failsOnBytes_word (width : Nat) : FailsOnBytes (word width) := by
  intro cursor
  rw [run_word]
  split
  · exact failsOnly_error trivial
  · exact failsOnly_ok _

theorem failsOnBytes_bytes (count : Nat) : FailsOnBytes (bytes count) := by
  intro cursor
  rw [run_bytes]
  split
  · exact failsOnly_error trivial
  · exact failsOnly_ok _

theorem failsOnBytes_u8 : FailsOnBytes u8 :=
  (failsOnBytes_word 1).bind fun _ => failsOnBytes_pure _

theorem failsOnBytes_u16 : FailsOnBytes u16 :=
  (failsOnBytes_word 2).bind fun _ => failsOnBytes_pure _

theorem failsOnBytes_u32 : FailsOnBytes u32 :=
  (failsOnBytes_word 4).bind fun _ => failsOnBytes_pure _

theorem failsOnBytes_u64 : FailsOnBytes u64 :=
  (failsOnBytes_word 8).bind fun _ => failsOnBytes_pure _

/-- A step that is taken several times gives up where it does once. -/
theorem FailsOnBytes.many (h : FailsOnBytes step) (count : Nat) :
    FailsOnBytes (many step count) := by
  induction count with
  | zero => exact failsOnBytes_pure []
  | succ count ih => exact h.bind fun _ => ih.bind fun _ => failsOnBytes_pure _

theorem failsOnBytes_compressed : FailsOnBytes compressed := by
  refine failsOnBytes_u8.bind fun lead => ?_
  split
  · exact failsOnBytes_pure _
  split
  · exact failsOnBytes_u8.bind fun _ => failsOnBytes_pure _
  split
  · refine failsOnBytes_u8.bind fun second => ?_
    refine failsOnBytes_u8.bind fun third => ?_
    exact failsOnBytes_u8.bind fun last => failsOnBytes_pure _
  · exact failsOnBytes_throw trivial

end Read

/-! ## Where a body stands -/

open Read

theorem TableStream.failsOnly_view (tables : TableStream) (table : TableId) (rid : UInt32)
    (split : Row → Option α) : FailsOnly Fault.IsOfBytes (tables.view table rid split) := by
  unfold view
  cases (tables.row? table rid).bind split with
  | none => exact failsOnly_error trivial
  | some found => exact failsOnly_ok found

theorem Image.failsOnly_offsetOf (image : Image) (rva : Nat) :
    FailsOnly Fault.IsOfBytes (image.offsetOf rva) := by
  unfold offsetOf
  split
  · exact failsOnly_ok rva
  split
  · exact failsOnly_error trivial
  dsimp only
  split
  · exact failsOnly_error trivial
  · exact failsOnly_ok _

theorem Image.failsOnly_slice (image : Image) (offset length : Nat) :
    FailsOnly Fault.IsOfBytes (image.slice offset length) := by
  unfold slice
  split
  · exact failsOnly_error trivial
  · exact failsOnly_ok _

theorem Assembly.failsOnly_stream (assembly : Assembly) (name : String) :
    FailsOnly Fault.IsOfBytes (assembly.stream name) := by
  unfold stream MetadataRoot.streamData
  split
  · exact failsOnly_error trivial
  dsimp only
  split
  · exact failsOnly_error trivial
  · exact failsOnly_ok _

theorem BlobHeap.failsOnly_ofBytes (data : Bytes) : FailsOnly Fault.IsOfBytes (ofBytes data) := by
  unfold ofBytes
  split
  · exact failsOnly_ok _
  · exact failsOnly_error trivial

theorem BlobHeap.failsOnly_get (heap : BlobHeap) (index : Nat) :
    FailsOnly Fault.IsOfBytes (heap.get index) := by
  unfold get
  split
  · exact failsOnly_error trivial
  · exact failsOnBytes_compressed.bind (fun length => failsOnBytes_bytes _) ⟨heap.data, index⟩

/-- The number of declared local variables is missing only for what is wrong with bytes. -/
theorem Assembly.failsOnly_declaredLocals (assembly : Assembly) (token : Token) :
    FailsOnly Fault.IsOfBytes (assembly.declaredLocals token) := by
  have hsignature : FailsOnly Fault.IsOfBytes (assembly.localSignature token) := by
    unfold localSignature
    split
    · exact failsOnly_ok none
    split
    · exact failsOnly_error trivial
    refine (assembly.tables.failsOnly_view .standAloneSig token.row _).bind fun index => ?_
    refine (assembly.failsOnly_stream _).bind fun data => ?_
    exact (BlobHeap.failsOnly_ofBytes data).bind fun blobs => (blobs.failsOnly_get _).map
  unfold declaredLocals
  refine hsignature.bind fun found => ?_
  cases found with
  | none => exact failsOnly_ok 0
  | some signature =>
    have hhead : FailsOnBytes Signature.readLocalsHead := by
      refine failsOnBytes_u8.bind fun head => ?_
      split
      · exact failsOnBytes_throw trivial
      · exact failsOnBytes_compressed
    exact (hhead.parse signature).bind fun count => failsOnly_ok _

/-! ## Headers -/

theorem Clause.failsOnBytes_readSmall : FailsOnBytes readSmall := by
  refine failsOnBytes_u16.bind fun _ => failsOnBytes_u16.bind fun _ => ?_
  refine failsOnBytes_u8.bind fun _ => failsOnBytes_u16.bind fun _ => ?_
  exact failsOnBytes_u8.bind fun _ => failsOnBytes_u32.bind fun _ => failsOnBytes_pure _

theorem Clause.failsOnBytes_readFat : FailsOnBytes readFat := by
  refine failsOnBytes_u32.bind fun _ => failsOnBytes_u32.bind fun _ => ?_
  refine failsOnBytes_u32.bind fun _ => failsOnBytes_u32.bind fun _ => ?_
  exact failsOnBytes_u32.bind fun _ => failsOnBytes_u32.bind fun _ => failsOnBytes_pure _

theorem Section.failsOnly_clauses (data : Bytes) (start size : Nat) (fat : Bool) :
    FailsOnly Fault.IsOfBytes (clauses data start size fat) := by
  unfold clauses
  dsimp only
  split
  · exact (Clause.failsOnBytes_readFat.many _).parse _
  · exact (Clause.failsOnBytes_readSmall.many _).parse _

theorem Section.failsOnly_readFrom (data : Bytes) (fuel start : Nat) :
    FailsOnly Fault.IsOfBytes (readFrom data fuel start) := by
  induction fuel generalizing start with
  | zero => exact failsOnly_error trivial
  | succ fuel ih =>
    unfold readFrom
    refine .check trivial (.check trivial ?_)
    refine .choice (failsOnly_clauses data _ _ _) (failsOnly_ok []) fun own => ?_
    split
    · exact (ih _).bind fun later => failsOnly_ok _
    · exact failsOnly_ok own

theorem MethodHeader.failsOnly_read (data : Bytes) : FailsOnly Fault.IsOfBytes (read data) := by
  unfold read
  split
  · exact failsOnly_error trivial
  split
  · unfold readTiny
    dsimp only
    split
    · exact failsOnly_error trivial
    · exact failsOnly_ok _
  split
  · unfold readFat
    refine .check trivial (.check trivial (.check trivial ?_))
    exact .choice (Section.failsOnly_readFrom data _ _) (failsOnly_ok []) fun _ => failsOnly_ok _
  · exact failsOnly_error trivial

theorem MethodHeader.failsOnly_code (header : MethodHeader) (data : Bytes) :
    FailsOnly Fault.IsOfBytes (header.code data) := by
  unfold MethodHeader.code
  split
  · exact failsOnly_error trivial
  · exact failsOnly_ok _

/-! ## Code -/

namespace Code

theorem failsOnBytes_readOpcode : FailsOnBytes readOpcode := by
  refine failsOnBytes_get.bind fun cursor => failsOnBytes_u8.bind fun first => ?_
  have hvalid (opcode : Opcode) : FailsOnBytes (if opcode.isValid then pure opcode
      else throw (.instruction (.reserved opcode cursor.pos)) : Read Opcode) := by
    split
    · exact failsOnBytes_pure opcode
    · exact failsOnBytes_throw trivial
  dsimp only
  split
  · exact failsOnBytes_u8.map.bind hvalid
  · exact (failsOnBytes_pure _).bind hvalid

theorem failsOnBytes_readJump {distance : Read Int} (h : FailsOnBytes distance) :
    FailsOnBytes (readJump distance) :=
  h.bind fun _ => failsOnBytes_get.bind fun _ => failsOnBytes_pure _

theorem failsOnBytes_readSwitch : FailsOnBytes readSwitch := by
  refine failsOnBytes_u32.bind fun count => failsOnBytes_get.bind fun cursor => ?_
  split
  · exact failsOnBytes_throw trivial
  · refine (failsOnBytes_u32.many count.toNat).bind fun distances => ?_
    exact failsOnBytes_get.bind fun cursor => failsOnBytes_pure _

theorem failsOnBytes_readOperand (kind : OperandKind) : FailsOnBytes (readOperand kind) := by
  cases kind with
  | none => exact failsOnBytes_pure _
  | int8 | uint8 | local8 | arg8 => exact failsOnBytes_u8.bind fun _ => failsOnBytes_pure _
  | local16 | arg16 => exact failsOnBytes_u16.bind fun _ => failsOnBytes_pure _
  | int32 | float32 | token => exact failsOnBytes_u32.bind fun _ => failsOnBytes_pure _
  | int64 | float64 => exact failsOnBytes_u64.bind fun _ => failsOnBytes_pure _
  | branch8 => exact failsOnBytes_readJump (failsOnBytes_u8.bind fun _ => failsOnBytes_pure _)
  | branch32 => exact failsOnBytes_readJump (failsOnBytes_u32.bind fun _ => failsOnBytes_pure _)
  | switch => exact failsOnBytes_readSwitch

theorem failsOnBytes_readInstructions (fuel : Nat) (found : Array RawInstruction) :
    FailsOnBytes (readInstructions fuel found) := by
  induction fuel generalizing found with
  | zero => exact failsOnBytes_pure found
  | succ fuel ih =>
    refine failsOnBytes_get.bind fun cursor => ?_
    split
    · refine FailsOnBytes.bind ?_ fun raw => ih (found.push raw)
      refine failsOnBytes_get.bind fun here => failsOnBytes_readOpcode.bind fun opcode => ?_
      exact (failsOnBytes_readOperand _).bind fun operand => failsOnBytes_pure _
    · exact failsOnBytes_pure found

theorem failsOnly_resolve (starts : Std.HashMap Nat Slot) (target : Int) :
    FailsOnly Fault.IsOfBytes (resolve starts target) := by
  unfold resolve
  split
  · exact failsOnly_ok _
  · exact failsOnly_error trivial

/-- Code is not decoded only for what is wrong with its bytes. -/
theorem failsOnly_decode (code : Bytes) : FailsOnly Fault.IsOfBytes (decode code) := by
  have hoperand (starts : Std.HashMap Nat Slot) (operand : RawOperand) :
      FailsOnly Fault.IsOfBytes (RawOperand.resolve starts operand) := by
    cases operand with
    | ready operand => exact failsOnly_ok operand
    | jump target => exact (failsOnly_resolve starts target).map
    | jumps targets => exact (failsOnly_mapM (failsOnly_resolve starts) targets).map
  unfold decode
  refine .check trivial ?_
  refine ((failsOnBytes_readInstructions _ _).parse code).bind fun raw => ?_
  dsimp only
  rw [Array.mapM_eq_mapM_toList]
  refine (FailsOnly.map ?_).bind fun instructions => failsOnly_ok _
  exact failsOnly_mapM (fun raw => (hoperand _ _).bind fun operand => failsOnly_ok _) _

end Code

namespace Body

theorem failsOnly_slotAt (code : DecodedCode) (offset : Nat) :
    FailsOnly Fault.IsOfBytes (code.slotAt offset) := by
  unfold DecodedCode.slotAt
  split
  · exact failsOnly_ok none
  split
  · exact failsOnly_ok _
  · exact failsOnly_error trivial

theorem failsOnly_startSlot (code : DecodedCode) (offset : UInt32) :
    FailsOnly Fault.IsOfBytes (startSlot code offset) := by
  refine (failsOnly_slotAt code _).bind fun found => ?_
  cases found with
  | some slot => exact failsOnly_ok slot
  | none => exact failsOnly_error trivial

theorem failsOnly_endSlot (code : DecodedCode) (offset length : UInt32) :
    FailsOnly Fault.IsOfBytes (endSlot code offset length) := by
  unfold endSlot
  split
  · exact failsOnly_error trivial
  · exact failsOnly_slotAt code _

theorem failsOnly_regionOf (code : DecodedCode) (clause : Clause) :
    FailsOnly Fault.IsOfBytes (regionOf code clause) := by
  refine (failsOnly_startSlot code _).bind fun tryStart => ?_
  refine (failsOnly_endSlot code _ _).bind fun tryEnd => ?_
  refine (failsOnly_startSlot code _).bind fun handlerStart => ?_
  refine (failsOnly_endSlot code _ _).bind fun handlerEnd => ?_
  exact .choice (failsOnly_startSlot code _).map (failsOnly_ok none) fun _ => failsOnly_ok _

theorem failsOnly_decode (header : MethodHeader) (code : Bytes) (declared : Nat) :
    FailsOnly Fault.IsOfBytes (decode header code declared) := by
  refine (Code.failsOnly_decode code).bind fun decoded => ?_
  exact (failsOnly_mapM (failsOnly_regionOf decoded) _).bind fun regions => failsOnly_ok _

end Body

/-- **A body is missing for its bytes.** A method has no body to decode, or what is stored of it is
damaged. Nothing else keeps a body from being decoded. -/
theorem Assembly.body_faults {assembly : Assembly} {token : Token} {fault : Fault}
    (h : assembly.body token = .error fault) : fault = .noBody token ∨ fault.IsOfBytes := by
  have hstored : FailsOnly (fun fault => fault = .noBody token ∨ fault.IsOfBytes)
      (assembly.storedBody token) := by
    have hright (fault : Fault) (hfault : fault.IsOfBytes) :
        fault = .noBody token ∨ fault.IsOfBytes := .inr hfault
    unfold storedBody
    refine ((assembly.tables.failsOnly_view .methodDef token.row _).mono hright).bind fun row => ?_
    split
    · exact failsOnly_error (.inl rfl)
    refine FailsOnly.mono ?_ hright
    refine (assembly.image.failsOnly_offsetOf _).bind fun offset => ?_
    refine (assembly.image.failsOnly_slice _ _).bind fun data => ?_
    refine (MethodHeader.failsOnly_read data).bind fun header => ?_
    refine (header.failsOnly_code data).bind fun code => ?_
    refine (assembly.failsOnly_declaredLocals _).bind fun declared => ?_
    exact Body.failsOnly_decode header code declared
  unfold body at h
  split at h
  · cases h
  · exact hstored fault h

end CilPatch
