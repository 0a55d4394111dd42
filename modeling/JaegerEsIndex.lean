import JaegerEsIndex.Config
import JaegerEsIndex.DateWalk
import JaegerEsIndex.SamplingStore
import JaegerEsIndex.Cluster
import JaegerEsIndex.DependencyStore
import JaegerEsIndex.Termination
import JaegerEsIndex.SamplingReads
import JaegerEsIndex.ReadAfterWrite
import JaegerEsIndex.DependencyRace
import JaegerEsIndex.DependencyReads
import JaegerEsIndex.IndexCreation
import JaegerEsIndex.Migration
import JaegerEsIndex.ReadLimits
