import CilPatch.Fishing.Catalog
import CilPatch.Patch.Apply
import CilPatch.Report.Metadata

/-!
# Reports on assemblies

How declarations, the catalog and the outcomes of patches stand in a report. A type is its
token; a field or method is its token with what an instruction that uses it must know.
-/

namespace CilPatch

open Report

instance : Reported FieldHandle := ⟨fun handle =>
  .list [report handle.token, report handle.isStatic]⟩

instance : Reported MethodHandle := ⟨fun handle =>
  .list [report handle.token, report handle.isStatic, report handle.pops, report handle.pushes]⟩

instance : Reported FieldDecl := ⟨fun decl => .record [
  field "h" decl.handle, field "name" decl.name, field "flags" decl.flags,
  field "type" decl.sig.type, field "modifiers" decl.sig.modifiers,
  field "type_name" decl.typeName]⟩

instance : Reported MethodDecl := ⟨fun decl => .record [
  field "h" decl.handle, field "name" decl.name, field "flags" decl.flags,
  field "impl" decl.implFlags, field "rva" decl.rva, field "params" decl.paramCount,
  field "has_body" decl.hasBody, field "sig" decl.sig]⟩

instance : Reported TypeDecl := ⟨fun decl => .record [
  field "token" decl.token, field "name" decl.fullName, field "namespace" decl.space,
  field "enclosing" decl.enclosing, field "fields" decl.fields, field "methods" decl.methods]⟩

instance : Reported Catalog := ⟨fun catalog => .record [
  field "types" [catalog.projectile, catalog.player, catalog.main, catalog.item, catalog.entity],
  field "fields" [catalog.projectileAi, catalog.projectileOwner, catalog.projectileActive,
    catalog.projectileBobber, catalog.mainPlayer, catalog.mainMyPlayer, catalog.mainProjectile,
    catalog.controlUseItem, catalog.releaseUseItem, catalog.itemAnimation, catalog.whoAmI,
    catalog.fishingPole],
  field "methods" [catalog.consumeBait, catalog.pullBobber, catalog.kill, catalog.bobberAi,
    catalog.itemCheck]]⟩

instance : Reported PatchOutcome := ⟨fun outcome => .record [
  field "patch" outcome.patch, field "method" outcome.method, field "pattern" outcome.pattern,
  field "splice" outcome.splice]⟩

end CilPatch
