import TwinExporter.Json
import TwinExporter.Base64
import TwinExporter.Codec
import TwinExporter.Dumps
import TwinExporter.Policy
import TwinExporter.Registry
import TwinExporter.Gate
import TwinExporter.Cleanup
import TwinExporter.Reconcile
import TwinExporter.Writes
import TwinExporter.Disjoint
import TwinExporter.Mirror
import TwinExporter.Linkage
import TwinExporter.Effects
import TwinExporter.Crosstalk
import TwinExporter.Overwrite
import TwinExporter.Rerun
import TwinExporter.Isolation
import TwinExporter.Canonical
import TwinExporter.Signing
import TwinExporter.Addressing
import TwinExporter.Oblivious
import TwinExporter.Provenance
import TwinExporter.Attack
import TwinExporter.Twin
import TwinExporter.Downtime
import TwinExporter.Forgery
